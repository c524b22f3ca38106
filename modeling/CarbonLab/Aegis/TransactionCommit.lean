import CarbonLab.Aegis.TransactionPreflight
import CarbonLab.Aegis.TransactionRecovery

/-!
# The commit of a transaction

A commit that returns left every destination written.  A commit that raises, wherever it
does, left every destination as it was.  In between it can be recovered at any time.
-/

namespace CarbonLab.Aegis

open FileProgram

namespace Attempt

variable {project : Project} {attempt : Attempt project} {entropy : Entropy} {disk : Disk}
  {files after : FileSystem} {one : PreparedFile} {done rest : List PreparedFile} {phase : Text}
  {journal : Json}

/-! ## Between two destinations -/

variable (attempt) in
/-- The first destinations are written, and the other ones are as they were. -/
structure Staged (done rest : List PreparedFile) (files : FileSystem) : Prop where
  torn : attempt.Torn files
  pending : files.isDir attempt.txDir = true
  sole : attempt.Sole files
  written : ∀ one ∈ done, files.lookup one.path = one.data.map .file
  waiting : ∀ one ∈ rest, files.lookup one.path = one.before.map .file

variable (attempt) in
/-- Something was raised where a rollback finds the journal. -/
structure Halted (files : FileSystem) : Prop where
  torn : attempt.Torn files
  sole : attempt.Sole files
  journal : ∃ phase journal, attempt.Found files phase journal ∧ phase ≠ text "ROLLED_BACK"

variable (attempt) in
/-- Something was raised before there was a journal. -/
structure Unbegun (files : FileSystem) : Prop where
  torn : attempt.Torn files
  before : attempt.Before files
  bare : ∀ name, files.lookup (attempt.txDir ++ [name]) = none

theorem Staged.halted (staged : attempt.Staged done rest files)
    (found : attempt.Found files phase journal) (phases : phase ≠ text "ROLLED_BACK") :
    attempt.Halted files :=
  ⟨staged.torn, staged.sole, phase, journal, found, phases⟩

/-- Nothing else comes into the directory of the transaction. -/
theorem Sole.of_inside (sole : attempt.Sole files)
    (kept : ∀ path, attempt.txDir <+: path → path ≠ attempt.txDir →
      path ≠ attempt.journalPath → after.lookup path = files.lookup path) :
    attempt.Sole after := by
  intro name inside
  by_contra other
  rw [FileSystem.mem_names, kept _ (List.prefix_append _ _) (by simp)
    (fun same => other (by simpa [journalPath] using same)), ← FileSystem.mem_names] at inside
  exact other (sole name inside)

theorem Found.of_inside (found : attempt.Found files phase journal)
    (kept : ∀ path, attempt.txDir <+: path → after.lookup path = files.lookup path) :
    attempt.Found after phase journal where
  pending := by
    rw [FileSystem.isDir_iff, kept _ List.prefix_rfl]
    exact FileSystem.isDir_iff.mp found.pending
  known := found.known
  described := found.described
  lookup := (kept _ (List.prefix_append _ _)).trans found.lookup

/-- A journal is written beside the destinations. -/
theorem Staged.meets_journal (staged : attempt.Staged done rest disk.files)
    (inside : ∀ one ∈ done ++ rest, one ∈ attempt.prepared)
    (free : disk.files.lookup attempt.journalPath ≠ some .dir) (known : phase ∈ Project.phases)
    (described : Described project attempt.name attempt.prepared phase journal) :
    Program.Meets (Disk.serve entropy) (project.atomicWriteJson attempt.journalPath journal)
      (fun cut => attempt.Torn cut.files)
      (fun outcome final => outcome = .ok () ∧ attempt.Staged done rest final.files ∧
        attempt.Found final.files phase journal) disk := by
  have writable : Writable attempt.journalPath := by
    rw [journalPath_eq]
    exact attempt.writable
  have clear : disk.files.Clear attempt.journalPath := by
    intro above prefixed
    rw [journalPath, List.dropLast_concat] at prefixed
    have directory := FileSystem.isDir_of_prefix staged.pending prefixed
    rw [FileSystem.isFile_eq_false]
    rcases FileSystem.isDir_iff.mp directory with rfl | is
    · exact Or.inl (by_contra fun there =>
        (disk.files.rooted [] (Option.isSome_iff_ne_none.mpr there)).1 rfl)
    · exact Or.inr is
  unfold Project.atomicWriteJson
  obtain ⟨after, ran, written⟩ := run_atomicWriteBytes entropy project
    (jsonLine project.host.floats .indented journal) writable
    (show checkMode (.int 0o600) = .ok () from rfl) clear free
  have writes : Program.Keeps (Disk.serve entropy)
      (project.atomicWriteBytes attempt.journalPath
        (jsonLine project.host.floats .indented journal) (.int 0o600))
      (fun cut => Writing disk.files attempt.journalPath
        (jsonLine project.host.floats .indented journal) cut.files) disk :=
    (meets_atomicWriteBytes project _ _ _ writable.1 disk).keeps
  refine (writes.meets ?_).mono (fun cut writing =>
    (staged.torn.writeJournal staged.pending known described writing).1) fun _ _ _ held => held
  rintro outcome final ran' writing
  rw [ran] at ran'
  cases ran'
  obtain ⟨torn, pending⟩ := staged.torn.writeJournal staged.pending known described writing
  have same {one : PreparedFile} (member : one ∈ done ++ rest) :
      after.files.lookup one.path = disk.files.lookup one.path :=
    lookup_of_inside writing.2 List.prefix_rfl stateDir_prefix_journalPath (inside one member)
  have sole : attempt.Sole after.files := by
    refine staged.sole.of_inside fun path under below different => ?_
    rw [written, if_neg different, if_neg]
    rintro ⟨_, above⟩
    rw [journalPath, List.dropLast_concat] at above
    exact below (above.eq_of_length_le under.length_le)
  refine ⟨rfl, ⟨torn, pending, sole, fun one member => ?_, fun one member => ?_⟩, pending,
    known, described, ?_⟩
  · rw [same (List.mem_append_left _ member), staged.written one member]
  · rw [same (List.mem_append_right _ member), staged.waiting one member]
  · rw [written, if_pos rfl]

/-- A program that reads changes nothing. -/
theorem meets_reads {α : Type} {program : FileProgram α} (reads : Reads program)
    {outcome : Except Raised α} (ran : program.run (Disk.serve entropy) disk = (outcome, disk))
    {kept : Disk → Prop} (start : kept disk) :
    Program.Meets (Disk.serve entropy) program kept
      (fun result final => result = outcome ∧ final = disk) disk := by
  have keeps : Program.Keeps (Disk.serve entropy) program kept disk := by
    refine reads.keeps ?_ start
    rintro request rfl state held
    exact held
  refine keeps.meets fun result final ran' _ => ?_
  rw [ran] at ran'
  cases ran'
  exact ⟨rfl, rfl⟩

/-- What a read gives of a destination. -/
theorem meets_read (torn : attempt.Torn disk.files) (member : one ∈ attempt.prepared)
    {kept : Disk → Prop} (start : kept disk) :
    Program.Meets (Disk.serve entropy) (FileProgram.read one.path) kept
      (fun outcome final => outcome = .ok (disk.files.contents? one.path) ∧ final = disk) disk := by
  refine meets_reads (reads_read _) ?_ start
  rw [run_read, readOutcome_destination torn member]

theorem meets_faultAt {fault : FaultHook} {stage : Text} {kept : Disk → Prop} (start : kept disk) :
    Program.Meets (Disk.serve entropy) (Project.faultAt fault stage journal) kept
      (fun _ final => final = disk) disk := by
  unfold Project.faultAt
  cases fault stage journal with
  | error raised => exact Program.meets_raise.mpr ⟨start, rfl⟩
  | ok done => exact Program.meets_pure.mpr ⟨start, rfl⟩

/-- The next destination is deleted or written. -/
theorem Staged.meets_mutate (staged : attempt.Staged done (one :: rest) disk.files)
    (split : done ++ one :: rest = attempt.prepared)
    (found : attempt.Found disk.files phase journal) :
    Program.Meets (Disk.serve entropy) (project.mutate one) (fun cut => attempt.Torn cut.files)
      (fun outcome final => attempt.Torn final.files ∧ attempt.Sole final.files ∧
        attempt.Found final.files phase journal ∧
        (outcome = .ok () → attempt.Staged (done ++ [one]) rest final.files)) disk := by
  have member : one ∈ attempt.prepared := by rw [← split]; simp
  have once := attempt.destined.distinct
  rw [← split, List.map_append, List.map_cons, List.nodup_append, List.nodup_cons] at once
  have others {other : PreparedFile} (inside : other ∈ done ∨ other ∈ rest) :
      other ∈ attempt.prepared ∧ other.path ≠ one.path := by
    rcases inside with before | behind
    · refine ⟨by rw [← split]; simp [before], ?_⟩
      exact once.2.2 _ (List.mem_map.mpr ⟨other, before, rfl⟩) _ List.mem_cons_self
    · refine ⟨by rw [← split]; simp [behind], fun same => once.2.1.1 ?_⟩
      exact List.mem_map.mpr ⟨other, behind, same⟩
  have restores : project.mutate one =
      project.restore ⟨joinParts one.path, one.path, one.data, [], one.mode⟩ := by
    unfold Project.mutate Project.restore
    cases one.data <;> rfl
  rw [restores]
  have moves : Program.Meets (Disk.serve entropy)
      (project.restore ⟨joinParts one.path, one.path, one.data, [], one.mode⟩) _ _ disk :=
    meets_restore staged.torn staged.pending member rfl (Or.inr rfl)
  refine moves.mono (fun cut moved => moved.torn) fun outcome final moved ends => ?_
  have sole : attempt.Sole final.files :=
    staged.sole.of_inside fun path under _ _ => moved.inside path under
  refine ⟨moved.torn, sole, found.of_inside moved.inside, fun returned => ?_⟩
  refine ⟨moved.torn, moved.isDir staged.pending, sole, fun other inside => ?_,
    fun other inside => ?_⟩
  · rcases List.mem_append.mp inside with before | here
    · obtain ⟨member', different⟩ := others (Or.inl before)
      rw [moved.others other member' different, staged.written other before]
    · rw [List.mem_singleton.mp here]
      exact ends returned
  · obtain ⟨member', different⟩ := others (Or.inr inside)
    rw [moved.others other member' different]
    exact staged.waiting other (List.mem_cons_of_mem _ inside)

theorem Found.free (found : attempt.Found files phase journal) :
    files.lookup attempt.journalPath ≠ some .dir := by
  rw [found.lookup]
  nofun

/-- The loop over the destinations writes them all, or halts where they can be rolled back. -/
theorem meets_applyRecords {fault : FaultHook} {index : ℕ}
    (split : done ++ rest = attempt.prepared) (staged : attempt.Staged done rest disk.files)
    (found : attempt.Found disk.files "APPLYING" journal) :
    Program.Meets (Disk.serve entropy)
      (project.applyRecords fault attempt.journalPath index rest journal)
      (fun cut => attempt.Torn cut.files)
      (fun outcome final => match outcome with
        | .ok journal => attempt.Staged attempt.prepared [] final.files ∧
            attempt.Found final.files "APPLYING" journal
        | .error _ => attempt.Halted final.files) disk := by
  have phases : text "APPLYING" ≠ text "ROLLED_BACK" := by simp
  induction rest generalizing done index journal disk with
  | nil =>
      rw [List.append_nil] at split
      subst split
      exact Program.meets_pure.mpr ⟨staged.torn, staged, found⟩
  | cons one rest ih =>
      have member : one ∈ attempt.prepared := by rw [← split]; simp
      have contents {files : FileSystem} {bytes : Option Bytes}
          (is : files.lookup one.path = bytes.map .file) : files.contents? one.path = bytes :=
        contents?_of_lookup is
      unfold Project.applyRecords
      -- the destination has not drifted
      refine Program.Meets.bind ((meets_read staged.torn member staged.torn).mono
        (fun _ held => held) ?_)
      rintro _ _ - ⟨rfl, rfl⟩
      dsimp only
      rw [contents (staged.waiting one List.mem_cons_self), if_neg (not_not.mpr rfl)]
      refine Program.Meets.bind ((meets_faultAt staged.torn).mono (fun _ held => held) ?_)
      rintro (raised | _) _ - rfl
      · exact staged.halted found phases
      refine Program.Meets.bind ((staged.meets_mutate split found).mono (fun _ held => held) ?_)
      rintro (raised | _) moved - ⟨torn, sole, found, written⟩
      · exact ⟨torn, sole, _, _, found, phases⟩
      have staged := written rfl
      have here : moved.files.lookup one.path = one.data.map .file :=
        staged.written one (by simp)
      refine Program.Meets.bind ((meets_faultAt staged.torn).mono (fun _ held => held) ?_)
      rintro (raised | _) _ - rfl
      · exact staged.halted found phases
      -- it holds what was written
      refine Program.Meets.bind ((meets_read staged.torn member staged.torn).mono
        (fun _ held => held) ?_)
      rintro _ _ - ⟨rfl, rfl⟩
      dsimp only
      rw [contents here, if_neg (not_not.mpr rfl)]
      have split : (done ++ [one]) ++ rest = attempt.prepared := by
        rw [← split, List.append_assoc]
        rfl
      have described := found.described.set (mergeSurrogates_text "applied")
        (Json.plain_int index) (by simp [readFields])
      refine Program.Meets.bind ((staged.meets_journal (fun other inside => split ▸ inside)
        found.free found.known described).mono (fun _ held => held) ?_)
      rintro outcome final - ⟨rfl, staged, found⟩
      exact ih split staged found

/-! ## The whole transaction -/

variable (attempt) in
/-- Nothing was begun, and no transaction is pending. -/
structure Quiet (files : FileSystem) : Prop where
  torn : attempt.Torn files
  before : attempt.Before files
  unopened : files.isDir attempt.txDir = false

variable (attempt) in
/-- The transaction is over, and the next recovery has nothing to do but to remove it. -/
structure Over (phase : Text) (files : FileSystem) : Prop where
  torn : attempt.Torn files
  settled : if phase = text "COMMITTED" then attempt.After files else attempt.Before files
  rest : files.isDir attempt.txDir = false ∨
    ∃ journal, attempt.Found files phase journal ∧ attempt.Sole files

/-- Where nothing was done yet, nothing is pending. -/
theorem quiet_start (attempt : Attempt project) : attempt.Quiet attempt.start where
  torn := torn_start
  before := attempt.before
  unopened := attempt.settled _

/-- The directory of the transaction is made. -/
theorem Quiet.staged (quiet : attempt.Quiet files)
    (made : ∀ other, after.lookup other =
      if other = attempt.txDir then some .dir else files.lookup other) :
    attempt.Staged [] attempt.prepared after ∧
      ∀ name, after.lookup (attempt.txDir ++ [name]) = none := by
  have bare (name : Text) : after.lookup (attempt.txDir ++ [name]) = none := by
    rw [made, if_neg (by simp)]
    exact lookup_of_not_isDir quiet.unopened name
  have around : Around files attempt.txDir after := by
    intro other different
    rw [made, if_neg different]
    exact Or.inl rfl
  have pending : after.isDir attempt.txDir = true := by
    rw [FileSystem.isDir_iff, made, if_pos rfl]
    exact Or.inr rfl
  have torn : attempt.Torn after := by
    refine quiet.torn.inside around (List.prefix_append _ _) List.prefix_rfl ?_ ?_
    · intro file
      rw [FileSystem.isFile, FileSystem.contents?, journalPath, bare] at file
      cases file
    · intro gone
      exact absurd gone (ne_false_of_eq_true pending)
  refine ⟨⟨torn, pending, fun name inside => ?_,
    fun one member => absurd member List.not_mem_nil, fun one member => ?_⟩, bare⟩
  · rw [FileSystem.mem_names, bare] at inside
    cases inside
  · rw [lookup_of_inside around (List.prefix_append _ _) stateDir_prefix_txDir member]
    exact quiet.before one member

theorem serve_mkdir (path : Path) (disk : Disk) :
    (∃ after, Disk.serve entropy (.mkdir path) disk = (.ok (), after) ∧
      ∀ other, after.files.lookup other =
        if other = path then some .dir else disk.files.lookup other) ∨
    ∃ error, Disk.serve entropy (.mkdir path) disk = (.error error, disk) := by
  rw [Disk.serve]
  split
  · exact Or.inr ⟨_, rfl⟩
  · split
    · refine Or.inl ⟨_, rfl, fun other => ?_⟩
      rw [Disk.withFiles, FileSystem.lookup_put]
    · exact Or.inr ⟨_, rfl⟩

/-- A transaction that returns wrote its destinations; one that raises can be rolled back. -/
theorem meets_transact {fault : FaultHook} {retain : Bool} (quiet : attempt.Quiet disk.files)
    (described : Described project attempt.name attempt.prepared "PREPARED" journal) :
    Program.Meets (Disk.serve project.host.entropy)
      (project.transact fault attempt.txDir journal attempt.prepared retain)
      (fun cut => attempt.Torn cut.files)
      (fun outcome final => match outcome with
        | .ok _ => attempt.Over "COMMITTED" final.files ∧
            (retain = false → final.files.isDir attempt.txDir = false)
        | .error _ => attempt.Halted final.files ∨ attempt.Unbegun final.files) disk := by
  have all : ∀ one ∈ [] ++ attempt.prepared, one ∈ attempt.prepared := fun _ inside => inside
  unfold Project.transact
  dsimp only
  refine Program.meets_act.mpr ⟨quiet.torn, ?_⟩
  rcases serve_mkdir attempt.txDir disk with ⟨opened, served, made⟩ | ⟨error, served⟩
  · rw [served]
    obtain ⟨staged, bare⟩ := quiet.staged made
    refine Program.Meets.bind (Program.meets_pure.mpr ⟨staged.torn, ?_⟩)
    refine Program.Meets.bind ((meets_faultAt staged.torn).mono (fun _ held => held) ?_)
    rintro (raised | _) _ - rfl
    · exact Or.inr ⟨staged.torn, staged.waiting, bare⟩
    refine Program.Meets.bind ((staged.meets_journal all (by rw [journalPath, bare]; simp)
      (by simp [Project.phases]) described).mono (fun _ held => held) ?_)
    rintro _ planned - ⟨rfl, staged, found⟩
    refine Program.Meets.bind ((meets_faultAt staged.torn).mono (fun _ held => held) ?_)
    rintro (raised | _) _ - rfl
    · exact Or.inl (staged.halted found (by simp))
    have applying := described.setPhase (mergeSurrogates_text "APPLYING")
    refine Program.Meets.bind ((staged.meets_journal all found.free
      (by simp [Project.phases]) applying).mono (fun _ held => held) ?_)
    rintro _ begun - ⟨rfl, staged, found⟩
    refine Program.Meets.bind ((meets_applyRecords rfl staged found).mono (fun _ held => held) ?_)
    rintro (raised | journal) applied - ends
    · exact Or.inl ends
    obtain ⟨staged, found⟩ := ends
    refine Program.Meets.bind (Program.meets_act.mpr
      ⟨staged.torn, Program.meets_pure.mpr ⟨staged.torn, ?_⟩⟩)
    have committed := (found.described.setPhase (mergeSurrogates_text "COMMITTED")).set
      (mergeSurrogates_text "committed")
      (Json.plain_str.mpr (mergeSurrogates_now project applied.ticks)) (by simp [readFields])
    have staged : attempt.Staged attempt.prepared [] applied.tick.files := staged
    refine Program.Meets.bind ((staged.meets_journal (fun _ inside => by simpa using inside)
      found.free (by simp [Project.phases]) committed).mono (fun _ held => held) ?_)
    rintro _ _ - ⟨rfl, staged, found⟩
    refine Program.Meets.bind ((meets_faultAt staged.torn).mono (fun _ held => held) ?_)
    rintro (raised | _) marked - rfl
    · exact Or.inl (staged.halted found (by simp))
    have after : attempt.After marked.files := staged.written
    cases retain with
    | true =>
        exact Program.meets_pure.mpr ⟨staged.torn,
          ⟨staged.torn, by rw [if_pos rfl]; exact after, Or.inr ⟨_, found, staged.sole⟩⟩,
          by simp⟩
    | false =>
        obtain ⟨middle, last, unlinked, removed, gone, cleared⟩ :=
          serve_removal project.host.entropy found.isFile staged.pending staged.sole
        obtain ⟨unmarked, still⟩ := staged.torn.unlinkJournal staged.pending removed
        have kept {one : PreparedFile} (member : one ∈ attempt.prepared) :
            middle.files.lookup one.path = marked.files.lookup one.path :=
          lookup_of_inside removed.around List.prefix_rfl stateDir_prefix_journalPath member
        have all : attempt.After middle.files :=
          fun one member => (kept member).trans (after one member)
        have bare : last.files.isDir attempt.txDir = false := by
          rw [← Bool.not_eq_true, FileSystem.isDir_iff, cleared, if_pos rfl]
          simp [txDir_ne_nil]
        have torn := unmarked.rmdir cleared (Or.inr all)
        have written : attempt.After last.files := fun one member =>
          (lookup_of_inside cleared.around (List.prefix_append _ _) stateDir_prefix_txDir
            member).trans (all one member)
        refine Program.Meets.bind (Program.meets_act.mpr ⟨staged.torn, ?_⟩)
        rw [show attempt.txDir ++ [text "journal.json"] = attempt.journalPath from rfl, unlinked]
        refine Program.meets_pure.mpr ⟨unmarked, ?_⟩
        refine Program.Meets.bind (Program.meets_act.mpr ⟨unmarked, ?_⟩)
        rw [gone]
        exact Program.meets_pure.mpr ⟨torn, Program.meets_pure.mpr ⟨torn,
          ⟨torn, by rw [if_pos rfl]; exact written, Or.inl bare⟩, fun _ => bare⟩⟩
  · rw [served]
    exact Program.meets_raise.mpr ⟨quiet.torn, Or.inr ⟨quiet.torn, quiet.before,
      lookup_of_not_isDir quiet.unopened⟩⟩

/-! ## The rollback -/

/-- The journal of a halted transaction rolls it back. -/
theorem meets_recoverTransaction (halted : attempt.Halted disk.files) :
    Program.Meets (Disk.serve project.host.entropy)
      (project.recoverTransaction attempt.journalPath true) (fun cut => attempt.Torn cut.files)
      (fun outcome final => (∃ recovered, outcome = .ok recovered) ∧
        attempt.Over "ROLLED_BACK" final.files) disk := by
  obtain ⟨torn, sole, phase, journal, found, different⟩ := halted
  have expected : attempt.Expected disk.files phase true := by
    intro one member
    rw [expectedHashes, if_neg different, if_neg (by simp)]
    rcases torn.either one member with is | is
    · rw [contents?_of_lookup is]
      exact List.mem_cons_self
    · rw [contents?_of_lookup is]
      exact List.mem_cons_of_mem _ List.mem_cons_self
  have rollback : (planFor project attempt.journalPath phase true attempt.prepared
      journal).rollback = true := by
    have known := found.known
    simp only [Project.phases, List.mem_cons, List.not_mem_nil, or_false] at known
    rcases known with rfl | rfl | rfl | rfl
    · rfl
    · rfl
    · rfl
    · exact absurd rfl different
  have read : project.readRecoveryJournal attempt.journalPath
      (disk.files.contents? attempt.journalPath) = .ok journal := by
    rw [FileSystem.contents?, found.lookup]
    exact readRecoveryJournal_jsonLine found.described
  have looks : Reads look := ⟨rfl, fun _ => trivial⟩
  unfold Project.recoverTransaction
  refine Program.Meets.bind ((meets_reads looks run_look_ torn).mono
    (fun _ held => held) ?_)
  rintro _ _ - ⟨rfl, rfl⟩
  dsimp only
  rw [read]
  refine Program.Meets.bind (Program.meets_pure.mpr ⟨torn, ?_⟩)
  dsimp only
  rw [prepareRecovery_described attempt.reads attempt.rooted attempt.destined found.known
    found.described]
  refine Program.Meets.bind (Program.meets_pure.mpr ⟨torn, ?_⟩)
  refine Program.Meets.bind ((meets_reads (reads_preflight _)
    ((run_preflightRecoveryBatch torn true rfl).1 expected) torn).mono (fun _ held => held) ?_)
  rintro _ _ - ⟨rfl, rfl⟩
  obtain ⟨recovered, after, ran, before, _, kept⟩ := run_applyRecovery torn found.isFile rollback
  have applies := meets_applyRecovery torn found.pending true found.described rfl
  have marks := applies.2
  rw [ran] at marks
  have marked := marks recovered rfl rollback
  have undone : attempt.Over "ROLLED_BACK" after.files := by
    refine ⟨(Program.Keeps.of_run applies.keeps ran).1, ?_, Or.inr ⟨recovered, marked, ?_⟩⟩
    · rw [if_neg (by simp)]
      exact before
    · exact sole.of_inside fun path under _ apart => kept path under apart
  refine (applies.keeps.meets ?_).mono (fun _ held => held.1) fun _ _ _ held => held
  intro outcome final ran' _
  rw [ran] at ran'
  cases ran'
  exact ⟨⟨recovered, rfl⟩, undone⟩

/-- Whatever was raised is raised again once the destinations are as they were. -/
theorem meets_rollback {original : Raised}
    (ends : attempt.Halted disk.files ∨ attempt.Unbegun disk.files) :
    Program.Meets (Disk.serve project.host.entropy) (project.rollback attempt.txDir original)
      (fun cut => attempt.Torn cut.files)
      (fun outcome final => outcome = .error original ∧
        attempt.Over "ROLLED_BACK" final.files) disk := by
  have exists_ : Reads (pathExists attempt.journalPath) := ⟨rfl, fun _ => trivial⟩
  have looks : Reads look := ⟨rfl, fun _ => trivial⟩
  unfold Project.rollback
  rw [show attempt.txDir ++ [text "journal.json"] = attempt.journalPath from rfl]
  rcases ends with halted | ⟨torn, before, bare⟩
  · obtain ⟨phase, journal, found, _⟩ := halted.journal
    refine Program.Meets.bind ((meets_reads exists_ (run_pathExists _) halted.torn).mono
      (fun _ held => held) ?_)
    rintro _ state - ⟨rfl, rfl⟩
    have encodes : attempt.journalPath.all encodable = true := by
      rw [List.all_eq_true, journalPath_eq]
      exact attempt.writable.2.2
    have there : (attempt.journalPath.all encodable &&
        state.files.exists? attempt.journalPath) = true := by
      rw [encodes, FileSystem.exists?, found.lookup]
      exact Bool.or_true _
    dsimp only
    rw [there, if_pos rfl]
    refine Program.Meets.bind (Program.Meets.tryCatch
      ((meets_recoverTransaction halted).mono (fun _ held => held) ?_))
    rintro _ final torn ⟨⟨recovered, rfl⟩, undone⟩
    exact Program.meets_raise.mpr ⟨torn, rfl, undone⟩
  · refine Program.Meets.bind ((meets_reads exists_ (run_pathExists _) torn).mono
      (fun _ held => held) ?_)
    rintro _ state - ⟨rfl, rfl⟩
    have missing : state.files.exists? attempt.journalPath = false := by
      rw [FileSystem.exists?, journalPath, bare]
      simp
    dsimp only
    rw [missing, Bool.and_false, if_neg Bool.false_ne_true]
    refine Program.Meets.bind ((meets_reads looks run_look_ torn).mono (fun _ held => held) ?_)
    rintro _ _ - ⟨rfl, rfl⟩
    dsimp only
    have settled {files : FileSystem} (before : attempt.Before files) :
        if text "ROLLED_BACK" = text "COMMITTED" then attempt.After files
          else attempt.Before files := by
      rw [if_neg (by simp)]
      exact before
    split
    · next directory =>
        obtain ⟨directory, empty⟩ := Bool.and_eq_true_iff.mp directory
        have is := (FileSystem.isDir_iff.mp directory).resolve_left txDir_ne_nil
        obtain ⟨after, served, removed⟩ := @serve_rmdir_empty project.host.entropy _ _ is bare
        have unopened : after.files.isDir attempt.txDir = false := by
          rw [← Bool.not_eq_true, FileSystem.isDir_iff, removed, if_pos rfl]
          simp [txDir_ne_nil]
        have torn' := torn.rmdir removed (Or.inl before)
        refine Program.Meets.bind (Program.meets_act.mpr ⟨torn, ?_⟩)
        rw [served]
        refine Program.meets_pure.mpr ⟨torn', Program.meets_raise.mpr ⟨torn', rfl, torn',
          settled fun one member => ?_, Or.inl unopened⟩⟩
        exact (lookup_of_inside removed.around (List.prefix_append _ _) stateDir_prefix_txDir
          member).trans (before one member)
    · next other =>
        refine Program.meets_raise.mpr ⟨torn, rfl, torn, settled before, Or.inl ?_⟩
        by_contra directory
        refine other ?_
        rw [Bool.not_eq_false] at directory
        rw [directory, Bool.true_and]
        exact FileSystem.isEmpty_iff.mpr bare

/-- A transaction on files where none is pending: it returns with all destinations written,
or it raises with all of them as they were. -/
theorem meets_attempt {fault : FaultHook} {retain : Bool} (quiet : attempt.Quiet disk.files)
    (described : Described project attempt.name attempt.prepared "PREPARED" journal) :
    Program.Meets (Disk.serve project.host.entropy)
      ((project.transact fault attempt.txDir journal attempt.prepared retain).tryCatch
        (project.rollback attempt.txDir)) (fun cut => attempt.Torn cut.files)
      (fun outcome final => match outcome with
        | .ok _ => attempt.Over "COMMITTED" final.files ∧
            (retain = false → final.files.isDir attempt.txDir = false)
        | .error _ => attempt.Over "ROLLED_BACK" final.files) disk := by
  refine Program.Meets.tryCatch ((meets_transact quiet described).mono (fun _ held => held) ?_)
  intro outcome final _ ends
  cases outcome with
  | ok journal => exact ends
  | error raised =>
      refine (meets_rollback ends).mono (fun _ held => held) ?_
      rintro _ last - ⟨rfl, undone⟩
      exact undone

/-! ## When a recovery returns -/

/-- `a` holds `x`, and `b` is not there. -/
def labFiles : FileSystem := FileSystem.ofList [([text "a"], .file [120]), ([text "s"], .dir)]

/-- A transaction that writes `y` and `z`. -/
def labAttempt : Attempt labProject where
  start := labFiles
  stateDir := [text "s"]
  txid := text "A-1"
  name := text "A"
  prepared := [⟨[text "a"], some [120], some [121], .int 0o644⟩,
    ⟨[text "b"], none, some [122], .null⟩]
  rooted := ⟨by unfold PlainNames; decide, by decide⟩
  reads letter below above := by
    change (digit? letter).isSome
    rw [digit?, if_pos ⟨below, Nat.lt_succ_of_le above⟩]
    rfl
  destined := ⟨by unfold PlainNames; decide, by decide, by decide⟩
  writable := by decide
  outside := by decide
  apart := by decide
  lasting := by
    have plain : ∀ one ∈ [[text "a"], [text "b"]], ∀ above ∈ one.inits,
        ∀ name ∈ above.getLast?, name.head? ≠ some (code '.') := by decide
    intro one member above prefixed
    refine not_temporary (plain one.path ?_ above ((List.mem_inits _ _).mpr prefixed))
    exact List.mem_map.mpr ⟨one, member, rfl⟩
  clear one member := by
    rw [← FileSystem.underFile_eq_false]
    revert one
    decide
  before := by decide
  mode := by decide
  home := ⟨by decide, not_temporary (by decide)⟩
  settled name := by
    rw [← Bool.not_eq_true, FileSystem.isDir_iff, not_or]
    refine ⟨by simp, fun directory => ?_⟩
    have inside : name ∈ labFiles.names [text "s"] := by
      rw [FileSystem.mem_names, directory]
      rfl
    rw [show labFiles.names [text "s"] = [] by decide] at inside
    cases inside

/-- The transaction without its rollback. -/
def labTransact : FileProgram Json :=
  labProject.transact (fun _ _ => .ok ()) labAttempt.txDir
    (labProject.journalOf labAttempt.txid labAttempt.name (labProject.host.entropy.now 0)
      labAttempt.prepared) labAttempt.prepared false

/-- The disk at the first moment at which some paths hold what is given. -/
def labCut (holds : List (Path × Option Node)) : Disk :=
  ((labTransact.cuts (Disk.serve labProject.host.entropy) ⟨labFiles, 0⟩).find? fun cut =>
    holds.all fun entry => cut.files.lookup entry.1 == entry.2).getD ⟨labFiles, 0⟩

/-- A destination is written, and the other one is not. -/
def labMiddle : Disk := labCut [([text "a"], some (.file [121])), ([text "b"], none)]

/-- The directory of the transaction is made. -/
def labBare : Disk := labCut [([text "s", text "A-1"], some .dir)]

theorem labMiddle_holds : labMiddle.files.lookup [text "a"] = some (.file [121]) ∧
    labMiddle.files.lookup [text "b"] = none ∧
    labMiddle.files.names labAttempt.txDir = [text "journal.json"] ∧
    labMiddle.files.lookup labAttempt.journalPath = some (.file (jsonLine labProject.host.floats
      .indented ((labProject.journalOf labAttempt.txid labAttempt.name
        (labProject.host.entropy.now 0) labAttempt.prepared).set "phase" (.str "APPLYING")))) := by
  decide +kernel

theorem labBare_holds : labBare.files.lookup labAttempt.txDir = some .dir ∧
    labBare.files.lookup labAttempt.journalPath = none := by
  decide +kernel

/-- The planned journal describes the destinations. -/
theorem described_lab : Described labProject labAttempt.name labAttempt.prepared "PREPARED"
    (labProject.journalOf labAttempt.txid labAttempt.name (labProject.host.entropy.now 0)
      labAttempt.prepared) :=
  described_journalOf labAttempt.rooted labAttempt.destined.writable
    (by simp [labAttempt, PlainMode]) (mergeSurrogates_text _) (mergeSurrogates_text _)
    (mergeSurrogates_now labProject 0)

/-- At every moment of it the transaction can be recovered. -/
theorem torn_labCut (holds : List (Path × Option Node)) :
    labAttempt.Torn (labCut holds).files := by
  unfold labCut
  cases found : List.find? _ _ with
  | none => exact labAttempt.quiet_start.torn
  | some cut =>
      have visits : labTransact.Visits (Disk.serve labProject.host.entropy) ⟨labFiles, 0⟩ cut :=
        Program.visits_of_mem_cuts (List.mem_of_find?_eq_some found)
      exact (meets_transact labAttempt.quiet_start described_lab).1 cut visits

theorem torn_labMiddle : labAttempt.Torn labMiddle.files := torn_labCut _

theorem torn_labBare : labAttempt.Torn labBare.files := torn_labCut _

theorem distinguished_lab : labAttempt.Distinguished := by
  unfold Distinguished
  decide +kernel

end Attempt

end CarbonLab.Aegis
