import CarbonLab.Aegis.Recovery

/-!
# The decision of a recovery

Until the first plan is applied, a recovery only reads.  Plans that pass the preflight have
their destinations for themselves when they are rolled back, and expect what stands there.
-/

namespace CarbonLab.Aegis

open Project FileProgram

variable {project : Project} {entropy : Entropy} {disk : Disk}

/-! ## Reading -/

/-- A program that makes no system call but those that read. -/
abbrev Reads {α : Type} (program : FileProgram α) : Prop := program.Asks (· = .look)

theorem Reads.run_disk {α : Type} {program : FileProgram α} (reads : Reads program)
    (entropy : Entropy) (disk : Disk) :
    (program.run (Disk.serve entropy) disk).2 = disk := by
  refine Program.Asks.run_state reads ?_
  rintro request rfl state
  rfl

theorem reads_ofExcept {α : Type} (outcome : Except Raised α) :
    Reads (FileProgram.ofExcept outcome) := by
  cases outcome with
  | ok value => trivial
  | error raised => trivial

theorem reads_look {α : Type} {next : FileSystem → FileProgram α}
    (later : ∀ files, Reads (next files)) : Reads (.act .look next) := ⟨rfl, later⟩

theorem reads_ite {α : Type} {condition : Prop} [Decidable condition]
    {first second : FileProgram α} (yes : Reads first) (no : Reads second) :
    Reads (if condition then first else second) := by
  split
  · exact yes
  · exact no

theorem reads_read (path : Path) : Reads (FileProgram.read path) := by
  unfold FileProgram.read pathExists readBytes
  refine Program.Asks.bind (reads_look fun files => trivial) fun there => reads_ite ?_ trivial
  refine reads_look fun files => ?_
  dsimp only
  cases files.contents? path with
  | some contents => trivial
  | none => trivial

theorem reads_checkDestination (destination : Destination) :
    Reads (project.checkDestination destination) :=
  Program.Asks.bind (reads_read _) fun _ => reads_ite trivial trivial

theorem reads_preflight (plans : List RecoveryPlan) :
    Reads (project.preflightRecoveryBatch plans) := by
  refine Program.Asks.bind (reads_ofExcept _) fun _ => ?_
  refine Program.Asks.bind ?_ fun _ => trivial
  exact Program.Asks.each fun plan => Program.Asks.each reads_checkDestination

theorem reads_scanDirectory (names : Option (List Text)) (removeRecovered : Bool)
    (directory : Path) : Reads (project.scanDirectory names removeRecovered directory) := by
  unfold scanDirectory FileProgram.isDir look
  refine Program.Asks.bind (reads_look fun _ => trivial) fun _ => reads_ite ?_ trivial
  refine Program.Asks.bind (reads_look fun _ => trivial) fun _ => reads_ite trivial ?_
  refine Program.Asks.bind (reads_look fun _ => trivial) fun _ => ?_
  refine Program.Asks.bind (reads_ofExcept _) fun preview => ?_
  refine Program.Asks.bind (reads_ofExcept _) fun _ => reads_ite (reads_ite ?_ trivial) trivial
  exact Program.Asks.bind (reads_look fun _ => trivial) fun _ => reads_ite trivial trivial

theorem reads_listDirectory (directory : Path) : Reads (listDirectory directory) :=
  Program.Asks.bind (reads_look fun _ => trivial) fun _ => reads_ite trivial trivial

/-- Until the first plan is applied, nothing is changed. -/
theorem reads_decideRecovery (stateDir : Path) (names : Option (List Text))
    (removeRecovered : Bool) :
    Reads (project.decideRecovery stateDir names removeRecovered) := by
  refine Program.Asks.bind (reads_listDirectory stateDir) fun directories => ?_
  refine Program.Asks.bind (Program.Asks.each (reads_scanDirectory names removeRecovered))
    fun found => ?_
  refine Program.Asks.bind (reads_ofExcept _) fun plans => ?_
  exact Program.Asks.bind (reads_preflight plans) fun _ => trivial

/-! ## What the preflight found -/

/-- What `_read` finds at a path. -/
def readable (files : FileSystem) (path : Path) : Option Bytes :=
  if path.all encodable then files.contents? path else none

/-- A destination holds what its plan expects. -/
def Expected (project : Project) (files : FileSystem) (destination : Destination) : Prop :=
  project.host.sha (readable files destination.path) ∈ destination.expectedHashes ∧
    (destination.path.all encodable = true → files.isDir destination.path = false)

theorem expected_of_checkDestination {destination : Destination} {done : Unit} {after : Disk}
    (checked : (project.checkDestination destination).run (Disk.serve entropy) disk =
      (.ok done, after)) : Expected project disk.files destination := by
  obtain ⟨current, middle, read, settled⟩ := Program.exists_of_run_bind checked
  have outcome : readOutcome disk.files destination.path = .ok current :=
    congrArg Prod.fst ((run_read entropy).symm.trans read)
  have found : current = readable disk.files destination.path ∧
      (destination.path.all encodable = true →
        disk.files.isDir destination.path = false) := by
    unfold readOutcome at outcome
    unfold readable
    split at outcome
    · next there =>
        rw [Bool.and_eq_true] at there
        rw [if_pos there.1]
        cases file : disk.files.contents? destination.path with
        | none =>
            rw [file] at outcome
            cases outcome
        | some contents =>
            rw [file] at outcome
            cases outcome
            refine ⟨rfl, fun _ => ?_⟩
            exact FileSystem.isDir_of_isFile (by rw [FileSystem.isFile, file]; rfl)
    · next absent =>
        cases outcome
        rw [Bool.and_eq_true, not_and] at absent
        split
        · next named =>
            have missing := absent named
            simp only [FileSystem.exists?, Bool.or_eq_true, decide_eq_true_eq, not_or,
              Option.not_isSome_iff_eq_none] at missing
            refine ⟨?_, fun _ => ?_⟩
            · rw [FileSystem.contents?, missing.2]
            · rw [← Bool.not_eq_true, FileSystem.isDir_iff, missing.2]
              rintro (root | directory)
              · exact missing.1 root
              · cases directory
        · next unnamed => exact ⟨rfl, fun named => absurd named unnamed⟩
  rw [found.1] at settled
  refine ⟨?_, found.2⟩
  by_contra unexpected
  rw [if_neg unexpected] at settled
  cases settled

/-! ## Owners -/

/-- No destination of a plan that is rolled back is claimed twice. -/
def Settled (owners : Owners) : Prop :=
  owners.Pairwise fun later earlier =>
    later.1 = earlier.1 → later.2.2 = false ∧ earlier.2.2 = false

/-- What a plan claims. -/
def RecoveryPlan.claims (plan : RecoveryPlan) : Owners :=
  plan.destinations.map fun destination => (destination.path, plan.journalPath, plan.rollback)

/-- The last owner stands for all the earlier ones. -/
theorem Settled.cons {owners : Owners} {path journalPath : Path} {rollback : Bool}
    (settled : Settled owners)
    (free : ∀ prior, owners.lookup path = some prior → prior.2 = false ∧ rollback = false) :
    Settled ((path, journalPath, rollback) :: owners) := by
  refine List.pairwise_cons.mpr ⟨?_, settled⟩
  induction owners with
  | nil => simp
  | cons last owners ih =>
      obtain ⟨behind, rest⟩ := List.pairwise_cons.mp settled
      rintro earlier member same
      dsimp only at same
      by_cases here : path = last.1
      · have latest := free last.2 (by rw [List.lookup_cons, here, beq_self_eq_true])
        rcases List.mem_cons.mp member with rfl | inside
        · exact ⟨latest.2, latest.1⟩
        · exact ⟨latest.2, (behind earlier inside (here.symm.trans same)).2⟩
      · rcases List.mem_cons.mp member with rfl | inside
        · exact absurd same here
        · refine ih rest (fun prior found => free prior ?_) earlier inside same
          rw [List.lookup_cons, beq_eq_false_iff_ne.mpr here]
          exact found

theorem settled_claimDestinations {journalPath : Path} {rollback : Bool}
    {destinations : List Destination} {owners after : Owners} (settled : Settled owners)
    (claimed : project.claimDestinations journalPath rollback destinations owners = .ok after) :
    Settled after ∧ after = (destinations.map fun destination =>
      (destination.path, journalPath, rollback)).reverse ++ owners := by
  induction destinations generalizing owners with
  | nil =>
      cases claimed
      exact ⟨settled, rfl⟩
  | cons destination rest ih =>
      rw [claimDestinations] at claimed
      have goesOn (free : ∀ prior, owners.lookup destination.path = some prior →
            prior.2 = false ∧ rollback = false)
          (claimed : project.claimDestinations journalPath rollback rest
            ((destination.path, journalPath, rollback) :: owners) = .ok after) :
          Settled after ∧ after = ((destination :: rest).map fun destination =>
            (destination.path, journalPath, rollback)).reverse ++ owners := by
        obtain ⟨still, is⟩ := ih (settled.cons free) claimed
        refine ⟨still, ?_⟩
        rw [is, List.map_cons, List.reverse_cons, List.append_assoc, List.singleton_append]
      split at claimed
      · next prior priorRollback found =>
          obtain ⟨_, allowed, claimed⟩ := bind_eq_ok.mp claimed
          rw [require_eq_ok] at allowed
          refine goesOn ?_ claimed
          intro other same
          cases found.symm.trans same
          exact allowed
      · next absent =>
          refine goesOn ?_ claimed
          intro other same
          cases absent.symm.trans same

theorem settled_claimPlans {plans : List RecoveryPlan} {owners after : Owners}
    (settled : Settled owners) (claimed : project.claimPlans plans owners = .ok after) :
    Settled after ∧ after = (plans.flatMap RecoveryPlan.claims).reverse ++ owners := by
  induction plans generalizing owners with
  | nil =>
      cases claimed
      exact ⟨settled, rfl⟩
  | cons plan rest ih =>
      obtain ⟨middle, first, claimed⟩ := bind_eq_ok.mp claimed
      obtain ⟨between, is⟩ := settled_claimDestinations settled first
      obtain ⟨last, ends⟩ := ih between claimed
      refine ⟨last, ?_⟩
      rw [ends, is, List.flatMap_cons, List.reverse_append, List.append_assoc]
      rfl

/-- Two plans of which one is rolled back share no destination. -/
def Apart (first second : RecoveryPlan) : Prop :=
  first.rollback = true ∨ second.rollback = true →
    ∀ here ∈ first.destinations, ∀ there ∈ second.destinations, here.path ≠ there.path

theorem Apart.symm {first second : RecoveryPlan} (apart : Apart first second) :
    Apart second first :=
  fun either here mine there yours same => apart either.symm there yours here mine same.symm

theorem apart_of_claimPlans {plans : List RecoveryPlan} {owners : Owners}
    (claimed : project.claimPlans plans [] = .ok owners) :
    plans.Pairwise Apart ∧ ∀ plan ∈ plans, plan.rollback = true →
      (plan.destinations.map Destination.path).Nodup := by
  obtain ⟨settled, is⟩ := settled_claimPlans List.Pairwise.nil claimed
  rw [is, List.append_nil, Settled, List.pairwise_reverse, List.pairwise_flatMap] at settled
  refine ⟨settled.2.imp ?_, fun plan member rollback => ?_⟩
  · intro first second claims either here mine there yours same
    have both := claims _ (List.mem_map_of_mem mine) _ (List.mem_map_of_mem yours) same.symm
    rcases either with first | second
    · exact Bool.false_ne_true (both.2.symm.trans first)
    · exact Bool.false_ne_true (both.1.symm.trans second)
  · have own := settled.1 plan member
    rw [RecoveryPlan.claims, List.pairwise_map] at own
    rw [List.Nodup, List.pairwise_map]
    refine own.imp fun claims same => ?_
    exact Bool.false_ne_true ((claims same.symm).1.symm.trans rollback)

/-! ## What the scan found -/

theorem ok_of_ofExcept {α : Type} {outcome : Except Raised α} {value : α} {after : Disk}
    (ran : (FileProgram.ofExcept outcome).run (Disk.serve entropy) disk = (.ok value, after)) :
    outcome = .ok value ∧ after = disk := by
  cases outcome with
  | ok found =>
      cases ran
      exact ⟨rfl, rfl⟩
  | error raised => cases ran

/-- A directory gives at most one candidate, with a journal in it. -/
theorem candidate_of_scanDirectory {names : Option (List Text)} {removeRecovered : Bool}
    {directory : Path} {found : List Candidate} {after : Disk}
    (scanned : (project.scanDirectory names removeRecovered directory).run (Disk.serve entropy)
      disk = (.ok found, after)) :
    found = [] ∨ (∃ preview, found = [⟨directory, preview⟩]) ∧
      disk.files.isFile (directory ++ [text "journal.json"]) = true := by
  obtain ⟨there, middle, isDir, scanned⟩ := Program.exists_of_run_bind scanned
  cases isDir
  split at scanned
  · obtain ⟨files, middle, looked, scanned⟩ := Program.exists_of_run_bind scanned
    cases looked
    split at scanned
    · cases scanned
    · next file =>
        rw [Bool.not_eq_false] at file
        obtain ⟨files, middle, looked, scanned⟩ := Program.exists_of_run_bind scanned
        cases looked
        obtain ⟨preview, middle, _, scanned⟩ := Program.exists_of_run_bind scanned
        obtain ⟨selected, middle, _, scanned⟩ := Program.exists_of_run_bind scanned
        split at scanned
        · split at scanned
          · obtain ⟨files, middle, looked, scanned⟩ := Program.exists_of_run_bind scanned
            split at scanned
            · cases scanned
            · cases scanned
              exact Or.inr ⟨⟨_, rfl⟩, file⟩
          · cases scanned
            exact Or.inr ⟨⟨_, rfl⟩, file⟩
        · cases scanned
          exact Or.inl rfl
  · cases scanned
    exact Or.inl rfl

/-- The candidates of a scan stand in the order of their directories. -/
theorem sublist_of_scan {names : Option (List Text)} {removeRecovered : Bool}
    {directories : List Path} {found : List (List Candidate)}
    (scanned : List.Forall₂ (fun directory candidates =>
      (project.scanDirectory names removeRecovered directory).run (Disk.serve entropy) disk =
        (.ok candidates, disk)) directories found) :
    (found.flatten.map Candidate.directory).Sublist directories ∧
      ∀ candidate ∈ found.flatten, disk.files.isFile candidate.journalPath = true := by
  induction scanned with
  | nil => exact ⟨.slnil, by simp⟩
  | cons here _ ih =>
      rw [List.flatten_cons, List.map_append, List.forall_mem_append]
      rcases candidate_of_scanDirectory here with rfl | ⟨⟨preview, rfl⟩, file⟩
      · exact ⟨ih.1.cons _, by simp, ih.2⟩
      · refine ⟨ih.1.cons_cons _, ?_, ih.2⟩
        intro candidate member
        rw [List.mem_singleton.mp member]
        exact file

theorem nodup_of_listDirectory {directory : Path} {directories : List Path} {after : Disk}
    (listed : (listDirectory directory).run (Disk.serve entropy) disk =
      (.ok directories, after)) : directories.Nodup := by
  obtain ⟨files, middle, looked, listed⟩ := Program.exists_of_run_bind listed
  cases looked
  split at listed
  · cases listed
    refine List.Nodup.map ?_ ?_
    · intro first second same
      simpa using same
    · exact (List.perm_insertionSort _ _).nodup_iff.mpr (FileSystem.nodup_names disk.files directory)
  · cases listed

theorem journalPath_of_planOf {candidate : Candidate} {plan : RecoveryPlan}
    (planned : project.planOf candidate = .ok plan) :
    plan.journalPath = candidate.journalPath := by
  obtain ⟨settled, _, planned⟩ := bind_eq_ok.mp planned
  unfold prepareRecovery at planned
  dsimp only at planned
  obtain ⟨_, _, planned⟩ := bind_eq_ok.mp planned
  obtain ⟨_, _, planned⟩ := bind_eq_ok.mp planned
  obtain ⟨_, _, planned⟩ := bind_eq_ok.mp planned
  obtain ⟨_, _, planned⟩ := bind_eq_ok.mp planned
  obtain ⟨_, _, planned⟩ := bind_eq_ok.mp planned
  obtain ⟨_, _, planned⟩ := bind_eq_ok.mp planned
  obtain ⟨_, _, planned⟩ := bind_eq_ok.mp planned
  obtain ⟨_, _, planned⟩ := bind_eq_ok.mp planned
  cases planned
  rfl

theorem journalPaths_of_planned {candidates : List Candidate} {plans : List RecoveryPlan}
    (planned : List.Forall₂ (fun candidate plan => project.planOf candidate = .ok plan)
      candidates plans) :
    plans.map RecoveryPlan.journalPath = candidates.map Candidate.journalPath := by
  induction planned with
  | nil => rfl
  | cons here _ ih => rw [List.map_cons, List.map_cons, journalPath_of_planOf here, ih]

/-- What holds of the plans of a recovery before the first one is applied. -/
structure Decided (project : Project) (files : FileSystem) (plans : List RecoveryPlan) : Prop where
  apart : plans.Pairwise Apart
  once : ∀ plan ∈ plans, plan.rollback = true → (plan.destinations.map Destination.path).Nodup
  expected : ∀ plan ∈ plans, ∀ destination ∈ plan.destinations,
    Expected project files destination
  journals : plans.Pairwise fun first second => first.journalPath ≠ second.journalPath
  journal : ∀ plan ∈ plans, files.isFile plan.journalPath = true

theorem decided_of_decideRecovery {stateDir : Path} {names : Option (List Text)}
    {removeRecovered : Bool} {candidates : List Candidate} {plans : List RecoveryPlan}
    {after : Disk}
    (decided : (project.decideRecovery stateDir names removeRecovered).run (Disk.serve entropy)
      disk = (.ok (candidates, plans), after)) : Decided project disk.files plans := by
  obtain ⟨directories, middle, listed, scan⟩ := Program.exists_of_run_bind decided
  have unlisted : middle = disk := by
    have still := (reads_listDirectory stateDir).run_disk entropy disk
    rwa [listed] at still
  subst unlisted
  obtain ⟨found, middle, scanned, planning⟩ := Program.exists_of_run_bind scan
  obtain ⟨rfl, scanned⟩ := Program.run_each_ok
    (fun directory => (reads_scanDirectory names removeRecovered directory).run_disk entropy)
    scanned
  obtain ⟨planned, planning, ranPlanning, preflight⟩ := Program.exists_of_run_bind planning
  obtain ⟨planned, rfl⟩ := ok_of_ofExcept ranPlanning
  obtain ⟨_, last, ranPreflight, ends⟩ := Program.exists_of_run_bind preflight
  cases ends
  obtain ⟨owners, claiming, ranClaiming, checking⟩ := Program.exists_of_run_bind ranPreflight
  obtain ⟨claimed, rfl⟩ := ok_of_ofExcept ranClaiming
  obtain ⟨checks, last, ranChecks, _⟩ := Program.exists_of_run_bind checking
  have reads (plan : RecoveryPlan) :
      Reads (Program.each project.checkDestination plan.destinations) :=
    Program.Asks.each reads_checkDestination
  obtain ⟨_, checked⟩ :=
    Program.run_each_ok (fun plan => (reads plan).run_disk entropy) ranChecks
  obtain ⟨sublist, files⟩ := sublist_of_scan scanned
  have planned := mapM_eq_ok.mp planned
  obtain ⟨apart, once⟩ := apart_of_claimPlans claimed
  refine ⟨apart, once, ?_, ?_, ?_⟩
  · intro plan member destination inside
    obtain ⟨values, _, done⟩ := exists_of_forall₂ checked member
    obtain ⟨_, done⟩ := Program.run_each_ok
      (fun destination => (reads_checkDestination destination).run_disk entropy) done
    obtain ⟨value, _, done⟩ := exists_of_forall₂ done inside
    exact expected_of_checkDestination done
  · have distinct : (found.flatten.map Candidate.journalPath).Nodup := by
      have directoriesOnce := (nodup_of_listDirectory listed).sublist sublist
      have journals : found.flatten.map Candidate.journalPath =
          (found.flatten.map Candidate.directory).map (· ++ [text "journal.json"]) := by
        rw [List.map_map]
        rfl
      rw [journals]
      exact directoriesOnce.map fun first second same => List.append_cancel_right same
    rw [← journalPaths_of_planned planned, List.Nodup, List.pairwise_map] at distinct
    exact distinct
  · intro plan member
    obtain ⟨candidate, inside, here⟩ := exists_of_forall₂_right planned member
    rw [journalPath_of_planOf here]
    exact files candidate inside

end CarbonLab.Aegis
