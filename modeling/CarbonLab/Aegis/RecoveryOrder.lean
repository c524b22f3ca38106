import CarbonLab.Aegis.RecoveryDecision

/-!
# Recovery decides before it writes

Nothing is changed unless every selected journal passes the preflight.  The preflight keeps
the plans apart and compares the destinations with the journals; whether a plan can be
applied it does not ask, so two plans may leave different files when they are applied in
different orders.  They do not when one plan at most is rolled back, or when every
destination to restore can be written and none stands in the way of another one.
-/

namespace CarbonLab.Aegis

open Project FileProgram

variable {project : Project}

/-! ## Orders -/

/-- The journal of a plan that was rolled back at a time. -/
def RecoveryPlan.marked (project : Project) (plan : RecoveryPlan) (time : Text) : Bytes :=
  jsonLine project.host.floats .indented (rolledBack plan.journal time)

namespace Project

variable (project : Project)

/-- How the application of plans ends, and what it leaves. -/
def ending (plans : List RecoveryPlan) (disk : Disk) : Except Raised Unit × Disk :=
  let outcome := (project.applyPlans plans).run (Disk.serve project.host.entropy) disk
  (outcome.1.map fun _ => (), outcome.2)

end Project

/-- The same files, but for the times at which plans were rolled back. -/
def SameUpToTimes (project : Project) (plans : List RecoveryPlan) (first second : FileSystem) :
    Prop :=
  ∀ path, first.lookup path = second.lookup path ∨
    ∃ plan ∈ plans, plan.rollback = true ∧ path = plan.journalPath ∧ ∃ here there,
      first.lookup path = some (.file (plan.marked project here)) ∧
        second.lookup path = some (.file (plan.marked project there))

/-- The order in which plans are applied does not matter. -/
def OrderFree (project : Project) (plans : List RecoveryPlan) (disk : Disk) : Prop :=
  ∀ first second, first.Perm plans → second.Perm plans →
    (project.ending first disk).1 = (project.ending second disk).1 ∧
      SameUpToTimes project plans (project.ending first disk).2.files
        (project.ending second disk).2.files

@[simp] theorem ending_nil (disk : Disk) : project.ending [] disk = (.ok (), disk) := rfl

theorem ending_cons (plan : RecoveryPlan) (plans : List RecoveryPlan) (disk : Disk) :
    project.ending (plan :: plans) disk =
      match (project.applyRecovery plan).run (Disk.serve project.host.entropy) disk with
      | (.ok _, middle) => project.ending plans middle
      | (.error raised, middle) => (.error raised, middle) := by
  unfold ending applyPlans
  rw [Program.each, Program.run_bind]
  rcases (project.applyRecovery plan).run (Disk.serve project.host.entropy) disk with
    ⟨raised | journal, middle⟩
  · rfl
  · dsimp only
    rw [Program.run_bind]
    rcases (Program.each project.applyRecovery plans).run (Disk.serve project.host.entropy)
      middle with ⟨raised | journals, last⟩
    · rfl
    · rfl

/-- Plans that are not rolled back change nothing. -/
theorem ending_filter (plans : List RecoveryPlan) (disk : Disk) :
    project.ending (plans.filter RecoveryPlan.rollback) disk = project.ending plans disk := by
  induction plans generalizing disk with
  | nil => rfl
  | cons plan plans ih =>
      rw [ending_cons]
      cases rollback : plan.rollback with
      | false =>
          rw [List.filter_cons, if_neg (by simp [rollback]), ih]
          unfold applyRecovery
          rw [if_pos rollback]
          rfl
      | true =>
          rw [List.filter_cons, if_pos rollback, ending_cons]
          rcases (project.applyRecovery plan).run (Disk.serve project.host.entropy) disk with
            ⟨raised | journal, middle⟩
          · rfl
          · exact ih middle

/-! ## Plans that can be applied -/

/-- One of two destinations is above the other one. -/
def Nested (first second : Destination) : Prop :=
  first.path <+: second.path.dropLast ∨ second.path <+: first.path.dropLast

/-- A plan that can be applied to some files.  It restores its destinations from the last one
to the first one. -/
structure Restorable (files : FileSystem) (plan : RecoveryPlan) : Prop where
  /-- Aegis may change every destination and the journal. -/
  writable : ∀ destination ∈ plan.destinations, Writable destination.path
  journal : Writable plan.journalPath
  /-- `os.chmod` takes the mode of what is restored. -/
  mode : ∀ destination ∈ plan.destinations, destination.before.isSome →
    checkMode destination.mode = .ok ()
  /-- A file above a destination is one that the plan removes before. -/
  clear : ∀ front destination back, plan.destinations = front ++ destination :: back →
    ∀ above, above <+: destination.path.dropLast → files.isFile above = true →
      ∃ earlier ∈ back, earlier.path = above
  /-- Of two nested destinations the one that is restored first was absent. -/
  nested : plan.destinations.Pairwise fun later earlier =>
    Nested later earlier → earlier.before = none
  /-- Nothing is written below the journal. -/
  below : ∀ destination ∈ plan.destinations, destination.before.isSome →
    ¬ plan.journalPath <+: destination.path.dropLast

/-- Plans of which every one can be applied, whatever others were applied before it. -/
structure Recoverable (project : Project) (files : FileSystem) (plans : List RecoveryPlan) :
    Prop where
  restorable : ∀ plan ∈ plans, Restorable files plan
  /-- Nested destinations of two plans were both absent. -/
  crossed : ∀ first ∈ plans, ∀ second ∈ plans, first ≠ second →
    ∀ one ∈ first.destinations, ∀ other ∈ second.destinations,
      Nested one other → one.before = none
  /-- What a plan restores of the journal of another one is that journal rolled back. -/
  foreign : ∀ first ∈ plans, ∀ second ∈ plans, first ≠ second →
    ∀ destination ∈ first.destinations, destination.path = second.journalPath →
      ∃ time, destination.before = some (second.marked project time)

/-- A destination whose contents are restored is below the path. -/
def Made (done : List Destination) (path : Path) : Prop :=
  path ≠ [] ∧ ∃ destination ∈ done, destination.before.isSome ∧
    path <+: destination.path.dropLast

/-- No journal that is marked and no destination that is restored. -/
def Untouched (marked : List RecoveryPlan) (done : List Destination) (path : Path) : Prop :=
  (∀ plan ∈ marked, plan.journalPath ≠ path) ∧ ∀ destination ∈ done, destination.path ≠ path

/-- The files after some destinations were restored and some journals were marked. -/
structure Restored (project : Project) (before : FileSystem) (marked : List RecoveryPlan)
    (done : List Destination) (after : FileSystem) : Prop where
  journals : ∀ plan ∈ marked, ∃ time,
    after.lookup plan.journalPath = some (.file (plan.marked project time))
  written : ∀ destination ∈ done, ∀ bytes, destination.before = some bytes →
    (∀ plan ∈ marked, plan.journalPath ≠ destination.path) →
      after.lookup destination.path = some (.file bytes)
  cleared : ∀ destination ∈ done, destination.before = none → ¬ Made done destination.path →
    (∀ plan ∈ marked, plan.journalPath ≠ destination.path) →
      after.lookup destination.path = none
  made : ∀ path, Made done path → after.lookup path = some .dir
  kept : ∀ path, Untouched marked done path → ¬ Made done path →
    after.lookup path = before.lookup path

theorem Restored.start (files : FileSystem) : Restored project files [] [] files where
  journals _ member := by cases member
  written _ member := by cases member
  cleared _ member := by cases member
  made path made := by
    obtain ⟨_, destination, member, _⟩ := made
    cases member
  kept _ _ _ := rfl

section

variable {files : FileSystem} {plans marked : List RecoveryPlan} {plan : RecoveryPlan}
  {front back done : List Destination} {destination : Destination} {disk : Disk}

theorem Nested.symm {first second : Destination} (nested : Nested first second) :
    Nested second first := nested.elim Or.inr Or.inl

theorem Made.mono {wider : List Destination} {path : Path} (made : Made done path)
    (more : ∀ destination ∈ done, destination ∈ wider) : Made wider path := by
  obtain ⟨below, destination, member, restored⟩ := made
  exact ⟨below, destination, more destination member, restored⟩

theorem made_cons {path : Path} : Made (destination :: done) path ↔
    path ≠ [] ∧ destination.before.isSome ∧ path <+: destination.path.dropLast ∨
      Made done path := by
  simp only [Made, List.exists_mem_cons_iff, and_or_left]

/-- What holds of the plans that are rolled back before the first one is applied. -/
structure Ready (project : Project) (files : FileSystem) (plans : List RecoveryPlan) : Prop where
  recoverable : Recoverable project files plans
  free : ∀ plan ∈ plans, ∀ destination ∈ plan.destinations, files.isDir destination.path = false
  journal : ∀ plan ∈ plans, files.isFile plan.journalPath = true

/-- What was marked and restored when a plan has restored its last destinations. -/
structure Within (plans marked : List RecoveryPlan) (plan : RecoveryPlan)
    (back done : List Destination) : Prop where
  member : plan ∈ plans
  marked : ∀ other ∈ marked, other ∈ plans ∧ other ≠ plan
  behind : ∀ earlier ∈ back, earlier ∈ done
  restored : ∀ earlier ∈ done, earlier ∈ back ∨
    ∃ owner ∈ plans, owner ≠ plan ∧ earlier ∈ owner.destinations

theorem not_dir_of_isDir {path : Path} (free : files.isDir path = false) :
    files.lookup path ≠ some .dir := by
  intro directory
  rw [FileSystem.isDir_iff.mpr (Or.inr directory)] at free
  cases free

/-- A destination is not below itself. -/
theorem not_above_self {path : Path} (below : path ≠ []) : ¬ path <+: path.dropLast := by
  intro prefixed
  have length := prefixed.length_le
  have long : 0 < path.length := List.length_pos_iff.mpr below
  rw [List.length_dropLast] at length
  omega

/-- What was restored and is nested with the next destination was absent. -/
theorem Within.absent (ready : Ready project files plans)
    (within : Within plans marked plan back done)
    (split : plan.destinations = front ++ destination :: back) {earlier : Destination}
    (restored : earlier ∈ done) (nested : Nested destination earlier) :
    earlier.before = none := by
  rcases within.restored earlier restored with behind | ⟨owner, owned, other, belongs⟩
  · have rules := (ready.recoverable.restorable plan within.member).nested
    rw [split, List.pairwise_append, List.pairwise_cons] at rules
    exact rules.2.1.1 earlier behind nested
  · exact ready.recoverable.crossed owner owned plan within.member other earlier belongs
      destination (by simp [split]) nested.symm

/-- No journal that is marked is above the next destination. -/
theorem Within.not_above (ready : Ready project files plans)
    (within : Within plans marked plan back done)
    (split : plan.destinations = front ++ destination :: back) {other : RecoveryPlan}
    (marks : other ∈ marked) : ¬ other.journalPath <+: destination.path.dropLast := by
  intro above
  obtain ⟨owned, apart⟩ := within.marked other marks
  have restorable := ready.recoverable.restorable plan within.member
  obtain ⟨earlier, behind, same⟩ := restorable.clear front destination back split _ above
    (ready.journal other owned)
  obtain ⟨time, is⟩ := ready.recoverable.foreign plan within.member other owned apart.symm earlier
    (by simp [split, behind]) same
  have absent := within.absent ready split (within.behind earlier behind)
    (Or.inr (by rw [same]; exact above))
  rw [is] at absent
  cases absent

/-- Nothing was written below the next destination. -/
theorem Within.unmade (ready : Ready project files plans)
    (within : Within plans marked plan back done)
    (split : plan.destinations = front ++ destination :: back) :
    ¬ Made done destination.path := by
  rintro ⟨_, earlier, restored, written, below⟩
  rw [within.absent ready split restored (Or.inl below)] at written
  cases written

/-- The next destination is no directory. -/
theorem Restored.destination_free (ready : Ready project files plans)
    (within : Within plans marked plan back done)
    (split : plan.destinations = front ++ destination :: back)
    (fresh : ∀ other ∈ done, other.path ≠ destination.path)
    (state : Restored project files marked done disk.files) :
    disk.files.lookup destination.path ≠ some .dir := by
  by_cases journal : ∃ other ∈ marked, other.journalPath = destination.path
  · obtain ⟨other, marks, same⟩ := journal
    obtain ⟨time, lookup⟩ := state.journals other marks
    rw [← same, lookup]
    simp
  · rw [state.kept _ ⟨fun other marks same => journal ⟨other, marks, same⟩, fresh⟩
      (within.unmade ready split)]
    exact not_dir_of_isDir (ready.free plan within.member destination (by simp [split]))

/-- No file stands above the next destination. -/
theorem Restored.destination_clear (ready : Ready project files plans)
    (within : Within plans marked plan back done)
    (split : plan.destinations = front ++ destination :: back)
    (state : Restored project files marked done disk.files) :
    disk.files.Clear destination.path := by
  intro above prefixed
  rw [FileSystem.isFile_eq_false]
  by_cases made : Made done above
  · exact Or.inr (state.made above made)
  have unmarked (other : RecoveryPlan) (marks : other ∈ marked) : other.journalPath ≠ above :=
    fun same => within.not_above ready split marks (same ▸ prefixed)
  by_cases restored : ∃ other ∈ done, other.path = above
  · obtain ⟨other, restored, rfl⟩ := restored
    exact Or.inl (state.cleared other restored
      (within.absent ready split restored (Or.inr prefixed)) made unmarked)
  · rw [state.kept above ⟨unmarked, fun other inside same => restored ⟨other, inside, same⟩⟩ made,
      ← FileSystem.isFile_eq_false, ← Bool.not_eq_true]
    intro file
    have restorable := ready.recoverable.restorable plan within.member
    obtain ⟨earlier, behind, same⟩ := restorable.clear front destination back split above prefixed
      file
    exact restored ⟨earlier, within.behind earlier behind, same⟩

/-- A destination is removed. -/
theorem Restored.removed (ready : Ready project files plans)
    (within : Within plans marked plan back done)
    (split : plan.destinations = front ++ destination :: back)
    (fresh : ∀ other ∈ done, other.path ≠ destination.path) (absent : destination.before = none)
    {before after : FileSystem} (state : Restored project files marked done before)
    (removed : Removed before destination.path after) :
    Restored project files marked (destination :: done) after := by
  have sameMade {path : Path} : Made (destination :: done) path ↔ Made done path := by
    simp [made_cons, absent]
  have unmade := within.unmade ready split
  constructor
  · intro other marks
    obtain ⟨time, lookup⟩ := state.journals other marks
    obtain ⟨owned, apart⟩ := within.marked other marks
    have different : other.journalPath ≠ destination.path := by
      intro same
      obtain ⟨_, is⟩ := ready.recoverable.foreign plan within.member other owned apart.symm
        destination (by simp [split]) same.symm
      rw [absent] at is
      cases is
    exact ⟨time, by rw [removed, if_neg different, lookup]⟩
  · intro other restored bytes is apart
    rcases List.mem_cons.mp restored with rfl | earlier
    · rw [absent] at is
      cases is
    · rw [removed, if_neg (fresh other earlier)]
      exact state.written other earlier bytes is apart
  · intro other restored is unmade' apart
    rcases List.mem_cons.mp restored with rfl | earlier
    · rw [removed, if_pos rfl]
    · rw [removed, if_neg (fresh other earlier)]
      exact state.cleared other earlier is (by rwa [sameMade] at unmade') apart
  · intro path made
    rw [sameMade] at made
    rw [removed, if_neg (by rintro rfl; exact unmade made)]
    exact state.made path made
  · rintro path ⟨journals, destinations⟩ unmade'
    rw [removed, if_neg (destinations destination List.mem_cons_self).symm]
    exact state.kept path ⟨journals, fun other earlier =>
      destinations other (List.mem_cons_of_mem _ earlier)⟩ (by rwa [sameMade] at unmade')

/-- A destination is written. -/
theorem Restored.write (ready : Ready project files plans)
    (within : Within plans marked plan back done)
    (split : plan.destinations = front ++ destination :: back)
    (fresh : ∀ other ∈ done, other.path ≠ destination.path) {bytes : Bytes}
    (is : destination.before = some bytes) {before after : FileSystem}
    (state : Restored project files marked done before)
    (written : Written before destination.path bytes after) :
    Restored project files marked (destination :: done) after := by
  have restorable := ready.recoverable.restorable plan within.member
  have below := (restorable.writable destination (by simp [split])).1
  have unmade := within.unmade ready split
  constructor
  · intro other marks
    obtain ⟨time, lookup⟩ := state.journals other marks
    obtain ⟨owned, apart⟩ := within.marked other marks
    by_cases same : other.journalPath = destination.path
    · obtain ⟨time', marked⟩ := ready.recoverable.foreign plan within.member other owned apart.symm
        destination (by simp [split]) same.symm
      rw [is, Option.some.injEq] at marked
      exact ⟨time', by rw [written, if_pos same, marked]⟩
    · exact ⟨time, by rw [written, if_neg same,
        if_neg fun both => within.not_above ready split marks both.2, lookup]⟩
  · intro other restored bytes' is' apart
    rcases List.mem_cons.mp restored with rfl | earlier
    · rw [is, Option.some.injEq] at is'
      rw [written, if_pos rfl, is']
    · rw [written, if_neg (fresh other earlier), if_neg]
      · exact state.written other earlier bytes' is' apart
      · rintro ⟨_, above⟩
        rw [within.absent ready split earlier (Or.inr above)] at is'
        cases is'
  · intro other restored absent unmade' apart
    rcases List.mem_cons.mp restored with rfl | earlier
    · rw [is] at absent
      cases absent
    · rw [made_cons, not_or] at unmade'
      rw [written, if_neg (fresh other earlier), if_neg]
      · exact state.cleared other earlier absent unmade'.2 apart
      · rintro ⟨inner, above⟩
        exact unmade'.1 ⟨inner, by rw [is]; rfl, above⟩
  · intro path made
    rw [made_cons] at made
    have different : path ≠ destination.path := by
      rintro rfl
      rcases made with ⟨_, _, above⟩ | made
      · exact not_above_self below above
      · exact unmade made
    rw [written, if_neg different]
    split
    · rfl
    · next aside => exact state.made path (made.resolve_left fun inside =>
        aside ⟨inside.1, inside.2.2⟩)
  · rintro path ⟨journals, destinations⟩ unmade'
    rw [made_cons, not_or] at unmade'
    rw [written, if_neg (destinations destination List.mem_cons_self).symm, if_neg]
    · exact state.kept path ⟨journals, fun other earlier =>
        destinations other (List.mem_cons_of_mem _ earlier)⟩ unmade'.2
    · rintro ⟨inner, above⟩
      exact unmade'.1 ⟨inner, by rw [is]; rfl, above⟩

/-- A destination is restored, whatever was restored before it. -/
theorem Restored.restore (ready : Ready project files plans)
    (within : Within plans marked plan back done)
    (split : plan.destinations = front ++ destination :: back)
    (fresh : ∀ other ∈ done, other.path ≠ destination.path)
    (state : Restored project files marked done disk.files) :
    ∃ after, (project.restore destination).run (Disk.serve project.host.entropy) disk =
        (.ok (), after) ∧
      Restored project files marked (destination :: done) after.files := by
  have inside : destination ∈ plan.destinations := by simp [split]
  have restorable := ready.recoverable.restorable plan within.member
  have writable := restorable.writable destination inside
  have clear := state.destination_clear ready within split
  have free := state.destination_free ready within split fresh
  unfold Project.restore
  cases is : destination.before with
  | none =>
      obtain ⟨after, ran, removed⟩ := run_durableUnlink project.host.entropy project writable clear
        free
      exact ⟨after, ran, state.removed ready within split fresh is removed⟩
  | some bytes =>
      obtain ⟨after, ran, written⟩ := run_atomicWriteBytes project.host.entropy project bytes
        writable (restorable.mode destination inside (by rw [is]; rfl)) clear free
      exact ⟨after, ran, state.write ready within split fresh is written⟩

/-- The destinations of a plan are restored, the last one first. -/
theorem Restored.restoreAll (ready : Ready project files plans)
    (within : Within plans marked plan back done) (split : plan.destinations = front ++ back)
    (once : (front.map Destination.path).Nodup)
    (fresh : ∀ destination ∈ front, ∀ other ∈ done, other.path ≠ destination.path)
    (state : Restored project files marked done disk.files) :
    ∃ values after, (Program.each project.restore front.reverse).run
        (Disk.serve project.host.entropy) disk = (.ok values, after) ∧
      Restored project files marked (front ++ done) after.files := by
  induction front using List.reverseRecOn generalizing back done disk with
  | nil => exact ⟨[], disk, rfl, state⟩
  | append_singleton front destination ih =>
      rw [List.append_assoc, List.singleton_append] at split
      obtain ⟨freshFront, freshHere⟩ := List.forall_mem_append.mp fresh
      rw [List.map_append, List.nodup_append] at once
      obtain ⟨middle, ran, between⟩ := state.restore ready within split
        (freshHere destination List.mem_cons_self)
      have still : Within plans marked plan (destination :: back) (destination :: done) := by
        refine ⟨within.member, within.marked, fun earlier behind => ?_, fun earlier restored => ?_⟩
        · exact (List.mem_cons.mp behind).elim (fun same => same ▸ List.mem_cons_self)
            fun behind => List.mem_cons_of_mem _ (within.behind earlier behind)
        · rcases List.mem_cons.mp restored with rfl | before
          · exact Or.inl List.mem_cons_self
          · exact (within.restored earlier before).imp_left (List.mem_cons_of_mem _)
      obtain ⟨values, after, ranRest, last⟩ := ih still split once.1
        (fun other remains => List.forall_mem_cons.mpr
          ⟨(once.2.2 _ (List.mem_map_of_mem remains) _ (by simp)).symm, freshFront other remains⟩)
        between
      refine ⟨() :: values, after, ?_, ?_⟩
      · rw [List.reverse_append, List.reverse_singleton, List.singleton_append]
        refine (Program.run_bind_ok ran).trans ?_
        exact Program.run_bind_ok ranRest
      · rw [List.append_assoc, List.singleton_append]
        exact last

/-- What is above a journal is a directory. -/
theorem isDir_above_journal {path above : Path} (file : files.isFile path = true)
    (prefixed : above <+: path.dropLast) : files.isDir above = true := by
  refine FileSystem.isDir_of_prefix (FileSystem.isDir_dropLast ?_) prefixed
  rw [FileSystem.isFile, FileSystem.contents?] at file
  cases there : files.lookup path with
  | none =>
      rw [there] at file
      cases file
  | some node => rfl

/-- What was marked and restored when a plan has restored all its destinations. -/
structure Applied (plans marked : List RecoveryPlan) (plan : RecoveryPlan)
    (done : List Destination) : Prop where
  member : plan ∈ plans
  marked : ∀ other ∈ marked, other ∈ plans ∧ other.journalPath ≠ plan.journalPath
  owned : ∀ earlier ∈ done, ∃ owner ∈ plans, earlier ∈ owner.destinations

/-- Nothing was written below a journal. -/
theorem Applied.unmade (ready : Ready project files plans)
    (applied : Applied plans marked plan done) :
    ¬ Made done plan.journalPath := by
  rintro ⟨_, destination, restored, written, above⟩
  obtain ⟨owner, owned, belongs⟩ := applied.owned destination restored
  by_cases same : owner = plan
  · subst same
    exact (ready.recoverable.restorable owner owned).below destination belongs written above
  obtain ⟨front, back, split⟩ := List.append_of_mem belongs
  have restorable := ready.recoverable.restorable owner owned
  obtain ⟨earlier, behind, is⟩ := restorable.clear front destination back split _ above
    (ready.journal plan applied.member)
  obtain ⟨time, marked⟩ := ready.recoverable.foreign owner owned plan applied.member same earlier
    (by simp [split, behind]) is
  have rules := restorable.nested
  rw [split, List.pairwise_append, List.pairwise_cons] at rules
  have absent := rules.2.1.1 earlier behind (Or.inr (by rw [is]; exact above))
  rw [marked] at absent
  cases absent

/-- A directory that was there still is. -/
theorem Restored.directory_kept (ready : Ready project files plans)
    (applied : Applied plans marked plan done) {path : Path} {after : FileSystem}
    (state : Restored project files marked done after) (below : path ≠ [])
    (directory : files.isDir path = true) :
    Untouched marked done path ∧ after.lookup path = some .dir := by
  have lookup := (FileSystem.isDir_iff.mp directory).resolve_left below
  have untouched : Untouched marked done path := by
    refine ⟨?_, ?_⟩
    · rintro other marks rfl
      have file := FileSystem.isDir_of_isFile (ready.journal other (applied.marked other marks).1)
      exact Bool.false_ne_true (file.symm.trans directory)
    · rintro other restored rfl
      obtain ⟨owner, owned, belongs⟩ := applied.owned other restored
      exact Bool.false_ne_true ((ready.free owner owned other belongs).symm.trans directory)
  refine ⟨untouched, ?_⟩
  by_cases made : Made done path
  · exact state.made path made
  · exact (state.kept path untouched made).trans lookup

/-- A journal is no directory, restored or not. -/
theorem Restored.journal_free (ready : Ready project files plans)
    (applied : Applied plans marked plan done) {after : FileSystem}
    (state : Restored project files marked done after) :
    after.lookup plan.journalPath ≠ some .dir := by
  have unmarked (other : RecoveryPlan) (marks : other ∈ marked) := (applied.marked other marks).2
  have unmade := applied.unmade ready
  by_cases restored : ∃ other ∈ done, other.path = plan.journalPath
  · obtain ⟨other, restored, same⟩ := restored
    rw [← same] at unmarked unmade ⊢
    cases is : other.before with
    | none =>
        rw [state.cleared other restored is unmade unmarked]
        simp
    | some bytes =>
        rw [state.written other restored bytes is unmarked]
        simp
  · rw [state.kept _ ⟨unmarked, fun other inside same => restored ⟨other, inside, same⟩⟩ unmade]
    exact not_dir_of_isDir (FileSystem.isDir_of_isFile (ready.journal plan applied.member))

/-- The journal of a plan is marked. -/
theorem Restored.mark (ready : Ready project files plans) (applied : Applied plans marked plan done)
    {before after : FileSystem} {time : Text} (state : Restored project files marked done before)
    (written : Written before plan.journalPath (plan.marked project time) after) :
    Restored project files (plan :: marked) done after := by
  have above {path : Path} (inside : path ≠ [] ∧ path <+: plan.journalPath.dropLast) :=
    state.directory_kept ready applied inside.1 (isDir_above_journal
      (ready.journal plan applied.member) inside.2)
  constructor
  · refine List.forall_mem_cons.mpr ⟨⟨time, by rw [written, if_pos rfl]⟩, ?_⟩
    intro other marks
    obtain ⟨earlier, lookup⟩ := state.journals other marks
    exact ⟨earlier, by rw [written, if_neg (applied.marked other marks).2,
      if_neg fun inside => (above inside).1.1 other marks rfl, lookup]⟩
  · intro other restored bytes is apart
    obtain ⟨here, others⟩ := List.forall_mem_cons.mp apart
    rw [written, if_neg here.symm, if_neg fun inside => (above inside).1.2 other restored rfl]
    exact state.written other restored bytes is others
  · intro other restored is unmade apart
    obtain ⟨here, others⟩ := List.forall_mem_cons.mp apart
    rw [written, if_neg here.symm, if_neg fun inside => (above inside).1.2 other restored rfl]
    exact state.cleared other restored is unmade others
  · intro path made
    rw [written, if_neg (by rintro rfl; exact applied.unmade ready made)]
    split
    · rfl
    · exact state.made path made
  · rintro path ⟨journals, destinations⟩ unmade
    obtain ⟨here, others⟩ := List.forall_mem_cons.mp journals
    rw [written, if_neg here.symm]
    split
    · next inside =>
        rw [← state.kept path ⟨others, destinations⟩ unmade, (above inside).2]
    · exact state.kept path ⟨others, destinations⟩ unmade

/-- A plan is applied, whatever plans were applied before it. -/
theorem Restored.apply (ready : Ready project files plans)
    (within : Within plans marked plan [] done) (rollback : plan.rollback = true)
    (apart : ∀ other ∈ marked, other.journalPath ≠ plan.journalPath)
    (once : (plan.destinations.map Destination.path).Nodup)
    (fresh : ∀ destination ∈ plan.destinations, ∀ other ∈ done, other.path ≠ destination.path)
    (state : Restored project files marked done disk.files) :
    ∃ journal after, (project.applyRecovery plan).run (Disk.serve project.host.entropy) disk =
        (.ok journal, after) ∧
      Restored project files (plan :: marked) (plan.destinations ++ done) after.files := by
  obtain ⟨values, middle, ran, between⟩ := state.restoreAll ready within
    (List.append_nil _).symm once fresh
  have applied : Applied plans marked plan (plan.destinations ++ done) := by
    refine ⟨within.member, fun other marks => ⟨(within.marked other marks).1, apart other marks⟩,
      List.forall_mem_append.mpr ⟨fun destination inside => ⟨plan, within.member, inside⟩, ?_⟩⟩
    intro earlier restored
    rcases within.restored earlier restored with behind | ⟨owner, owned, _, belongs⟩
    · cases behind
    · exact ⟨owner, owned, belongs⟩
  generalize stamped : project.host.entropy.now middle.ticks = time
  have clear : middle.tick.files.Clear plan.journalPath := by
    intro above prefixed
    by_cases below : above = []
    · rw [below]
      exact FileSystem.isFile_eq_false.mpr (Or.inl FileSystem.lookup_root)
    · have directory := between.directory_kept ready applied below
        (isDir_above_journal (ready.journal plan within.member) prefixed)
      exact FileSystem.isFile_eq_false.mpr (Or.inr directory.2)
  obtain ⟨after, marks, written⟩ := run_atomicWriteBytes project.host.entropy project
    (plan.marked project time) (ready.recoverable.restorable plan within.member).journal
    (show checkMode (.int 0o600) = .ok () from rfl) clear (between.journal_free ready applied)
  refine ⟨rolledBack plan.journal time, after, ?_, between.mark ready applied written⟩
  unfold applyRecovery
  rw [if_neg (by rw [rollback]; nofun)]
  refine (Program.run_bind_ok ran).trans ?_
  have clock : now.run (Disk.serve project.host.entropy) middle = (.ok time, middle.tick) := by
    rw [← stamped]
    rfl
  refine (Program.run_bind_ok clock).trans ?_
  exact Program.run_bind_ok marks

end

/-- Plans that can be applied are all applied, and leave what their destinations held. -/
theorem Restored.applyAll {files : FileSystem} {plans order marked : List RecoveryPlan}
    {done : List Destination} {disk : Disk} (ready : Ready project files plans)
    (rollback : ∀ plan ∈ plans, plan.rollback = true)
    (apart : (order ++ marked).Pairwise Apart)
    (journals : (order ++ marked).Pairwise fun first second =>
      first.journalPath ≠ second.journalPath)
    (once : ∀ plan ∈ plans, (plan.destinations.map Destination.path).Nodup)
    (member : ∀ plan ∈ order ++ marked, plan ∈ plans)
    (belongs : ∀ destination, destination ∈ done ↔
      ∃ plan ∈ marked, destination ∈ plan.destinations)
    (state : Restored project files marked done disk.files) :
    (project.ending order disk).1 = .ok () ∧ ∃ restored,
      (∀ destination, destination ∈ restored ↔
        ∃ plan ∈ order ++ marked, destination ∈ plan.destinations) ∧
      Restored project files (order.reverse ++ marked) restored
        (project.ending order disk).2.files := by
  induction order generalizing marked done disk with
  | nil => exact ⟨rfl, done, belongs, state⟩
  | cons plan order ih =>
      rw [List.cons_append, List.pairwise_cons] at apart journals
      obtain ⟨here, later⟩ := List.forall_mem_cons.mp member
      have unmarked (other : RecoveryPlan) (marks : other ∈ marked) :
          other.journalPath ≠ plan.journalPath :=
        (journals.1 other (List.mem_append_right _ marks)).symm
      have within : Within plans marked plan [] done := by
        refine ⟨here, fun other marks => ⟨later other (List.mem_append_right _ marks), ?_⟩,
          List.forall_mem_nil _, fun earlier restored => Or.inr ?_⟩
        · rintro rfl
          exact unmarked other marks rfl
        · obtain ⟨owner, marks, inside⟩ := (belongs earlier).mp restored
          refine ⟨owner, later owner (List.mem_append_right _ marks), ?_, inside⟩
          rintro rfl
          exact unmarked owner marks rfl
      obtain ⟨journal, middle, ran, between⟩ := state.apply ready within (rollback plan here)
        unmarked (once plan here) (fun destination inside other restored => by
          obtain ⟨owner, marks, owns⟩ := (belongs other).mp restored
          exact (apart.1 owner (List.mem_append_right _ marks) (Or.inl (rollback plan here))
            destination inside other owns).symm)
      have shifted : List.Perm (order ++ plan :: marked) (plan :: (order ++ marked)) :=
        List.perm_middle
      have ends := ih
        (shifted.symm.pairwise (List.pairwise_cons.mpr apart) Apart.symm)
        (shifted.symm.pairwise (List.pairwise_cons.mpr journals) Ne.symm)
        (fun other inside => member other (shifted.mem_iff.mp inside))
        (fun destination => by
          rw [List.mem_append, belongs destination, List.exists_mem_cons_iff]) between
      rw [ending_cons, ran, List.reverse_cons, List.append_assoc]
      obtain ⟨ok, restored, are, last⟩ := ends
      refine ⟨ok, restored, fun destination => (are destination).trans ?_, last⟩
      simp only [shifted.mem_iff, List.cons_append]

/-- Plans that can be applied leave the same files in any order. -/
theorem orderFree_of_recoverable {plans : List RecoveryPlan} {disk : Disk}
    (decided : Decided project disk.files plans)
    (recoverable : Recoverable project disk.files (plans.filter RecoveryPlan.rollback)) :
    OrderFree project plans disk := by
  have selected {plan : RecoveryPlan} (member : plan ∈ plans.filter RecoveryPlan.rollback) :
      plan ∈ plans ∧ plan.rollback = true := List.mem_filter.mp member
  have ready : Ready project disk.files (plans.filter RecoveryPlan.rollback) := by
    refine ⟨recoverable, fun plan member destination inside => ?_,
      fun plan member => decided.journal plan (selected member).1⟩
    have names := ((recoverable.restorable plan member).writable destination inside).2.2
    exact (decided.expected plan (selected member).1 destination inside).2
      (List.all_eq_true.mpr names)
  have applied {order : List RecoveryPlan} (perm : order.Perm plans) :
      (project.ending order disk).1 = .ok () ∧ ∃ restored,
        (∀ destination, destination ∈ restored ↔
          ∃ plan ∈ plans.filter RecoveryPlan.rollback, destination ∈ plan.destinations) ∧
        Restored project disk.files (order.filter RecoveryPlan.rollback).reverse restored
          (project.ending order disk).2.files := by
    have perm := perm.filter RecoveryPlan.rollback
    have ends := Restored.applyAll ready (fun plan member => (selected member).2)
      (by
        rw [List.append_nil]
        exact perm.symm.pairwise (decided.apart.filter _) Apart.symm)
      (by
        rw [List.append_nil]
        exact perm.symm.pairwise (decided.journals.filter _) Ne.symm)
      (fun plan member => decided.once plan (selected member).1 (selected member).2)
      (by
        rw [List.append_nil]
        exact fun plan member => perm.mem_iff.mp member)
      (by simp) (Restored.start disk.files)
    rw [ending_filter, List.append_nil, List.append_nil] at ends
    obtain ⟨ok, restored, are, last⟩ := ends
    exact ⟨ok, restored, fun destination => (are destination).trans (by simp only [perm.mem_iff]),
      last⟩
  intro first second firstPerm secondPerm
  obtain ⟨firstOk, firstDone, firstAre, firstLast⟩ := applied firstPerm
  obtain ⟨secondOk, secondDone, secondAre, secondLast⟩ := applied secondPerm
  refine ⟨firstOk.trans secondOk.symm, fun path => ?_⟩
  have marks {order : List RecoveryPlan} (perm : order.Perm plans) {plan : RecoveryPlan} :
      plan ∈ (order.filter RecoveryPlan.rollback).reverse ↔
        plan ∈ plans.filter RecoveryPlan.rollback := by
    rw [List.mem_reverse, (perm.filter RecoveryPlan.rollback).mem_iff]
  by_cases journal : ∃ plan ∈ plans.filter RecoveryPlan.rollback, plan.journalPath = path
  · obtain ⟨plan, member, rfl⟩ := journal
    obtain ⟨here, firstLookup⟩ := firstLast.journals plan ((marks firstPerm).mpr member)
    obtain ⟨there, secondLookup⟩ := secondLast.journals plan ((marks secondPerm).mpr member)
    exact Or.inr ⟨plan, (selected member).1, (selected member).2, rfl, here, there, firstLookup,
      secondLookup⟩
  have unmarked {order : List RecoveryPlan} (perm : order.Perm plans) :
      ∀ plan ∈ (order.filter RecoveryPlan.rollback).reverse, plan.journalPath ≠ path :=
    fun plan member same => journal ⟨plan, (marks perm).mp member, same⟩
  left
  have sameDone {destination : Destination} :
      destination ∈ firstDone ↔ destination ∈ secondDone :=
    (firstAre destination).trans (secondAre destination).symm
  have sameMade : Made firstDone path ↔ Made secondDone path := by
    simp only [Made, sameDone]
  by_cases made : Made firstDone path
  · rw [firstLast.made path made, secondLast.made path (sameMade.mp made)]
  by_cases restored : ∃ destination ∈ firstDone, destination.path = path
  · obtain ⟨destination, inside, rfl⟩ := restored
    cases is : destination.before with
    | none =>
        rw [firstLast.cleared destination inside is made (unmarked firstPerm),
          secondLast.cleared destination (sameDone.mp inside) is (by rwa [← sameMade])
            (unmarked secondPerm)]
    | some bytes =>
        rw [firstLast.written destination inside bytes is (unmarked firstPerm),
          secondLast.written destination (sameDone.mp inside) bytes is (unmarked secondPerm)]
  · rw [firstLast.kept path ⟨unmarked firstPerm, fun destination inside same =>
        restored ⟨destination, inside, same⟩⟩ made,
      secondLast.kept path ⟨unmarked secondPerm, fun destination inside same =>
        restored ⟨destination, sameDone.mpr inside, same⟩⟩ (by rwa [← sameMade])]

/-- One plan that is rolled back stands in nobody's way. -/
theorem orderFree_of_length_le {plans : List RecoveryPlan}
    (one : (plans.filter RecoveryPlan.rollback).length ≤ 1) (disk : Disk) :
    OrderFree project plans disk := by
  have same {order : List RecoveryPlan} (perm : order.Perm plans) :
      order.filter RecoveryPlan.rollback = plans.filter RecoveryPlan.rollback := by
    have perm := perm.filter RecoveryPlan.rollback
    match is : plans.filter RecoveryPlan.rollback with
    | [] => exact List.perm_nil.mp (is ▸ perm)
    | [plan] => exact List.perm_singleton.mp (is ▸ perm)
    | first :: second :: rest =>
        rw [is] at one
        simp at one
  intro first second firstPerm secondPerm
  rw [← ending_filter first, ← ending_filter second, same firstPerm, same secondPerm]
  exact ⟨rfl, fun path => Or.inl rfl⟩

end CarbonLab.Aegis
