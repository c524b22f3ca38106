import CarbonLab.Aegis.EvidenceRuns
import CarbonLab.Aegis.SaveLoad
import CarbonLab.Aegis.StoreCalls

/-!
# Frozen tasks

A terminal task, and a task with an active child, is left alone by every call that mutates
it and by every append to its ledger.  `save` has none of these guards.
-/

namespace CarbonLab.Aegis

namespace StateStore

variable {host : Host} {id : Text}

/-- The state of a task is terminal. -/
def Terminal (task : Json) : Prop :=
  ∃ stage ∈ Stage.terminal, task.get "state" = .str stage

/-! ## Saves -/

/-- The checks that `_save_locked` makes on a loaded task before it writes. -/
def PassesChecks (host : Host) (time : Text) (disk : TaskDisk) (current task : Json)
    (expected : ℤ) : Prop :=
  ∃ migrated stored found priorName name,
    prepare host disk.files current task expected time = .ok (migrated, stored) ∧
    loadAnchor host ((current.get "id").str?.getD []) disk
      (TaskSchema.isVersioned (current.get "schema")) = .ok found ∧
    historyPath (found.getD (newAnchor host migrated none)) = .ok priorName ∧
    historyPath (newAnchor host stored (some (found.getD (newAnchor host migrated none)))) =
      .ok name ∧
    name ≠ priorName ∧ name ∉ (disk.history.getD []).map (·.1)

/-- A name is new to a history to which an entry was added when it was missing. -/
theorem not_mem_added {entries : List (Text × Option Bytes)} {priorName name : Text}
    {contents : Option Bytes} :
    name ∉ (if (entries.map (·.1)).contains priorName then entries
        else entries ++ [(priorName, contents)]).map (·.1) ↔
      name ≠ priorName ∧ name ∉ entries.map (·.1) := by
  split
  · next there =>
      have member : priorName ∈ entries.map (·.1) := List.contains_iff_mem.mp there
      constructor
      · intro absent
        refine ⟨fun same => absent ?_, absent⟩
        rw [same]
        exact member
      · exact fun both => both.2
  · rw [List.map_append, List.mem_append, not_or, List.map_singleton, List.mem_singleton]
    exact and_comm

theorem saveLocked_ok_iff {time : Text} {disk : TaskDisk} {current task : Json} {expected : ℤ} :
    (∃ result, saveLocked host disk current task expected time = .ok result) ↔
      PassesChecks host time disk current task expected := by
  unfold saveLocked PassesChecks
  simp only [bind_eq_ok, require_eq_ok, exists_const, not_mem_added]
  constructor
  · rintro ⟨_, ⟨migrated, stored⟩, prepares, found, loads, priorName, priorPath, name, path, fresh,
      _⟩
    exact ⟨migrated, stored, found, priorName, name, prepares, loads, priorPath, path, fresh⟩
  · rintro ⟨migrated, stored, found, priorName, name, prepares, loads, priorPath, path, fresh⟩
    exact ⟨_, _, prepares, found, loads, priorName, priorPath, name, path, fresh, rfl⟩

/-- A save makes the history longer. -/
theorem saveLocked_changes {time : Text} {disk after : TaskDisk} {current task stored : Json}
    {expected : ℤ}
    (done : saveLocked host disk current task expected time = .ok (stored, after)) :
    after ≠ disk := by
  unfold saveLocked at done
  simp only [bind_eq_ok, require_eq_ok, exists_const] at done
  obtain ⟨_, _, _, _, _, _, _, _, _, done⟩ := done
  cases done
  intro same
  have lengths := congrArg (fun disk : TaskDisk => (disk.history.getD []).length) same
  simp only [Option.getD_some, List.length_append, List.length_singleton] at lengths
  split at lengths
  · omega
  · rw [List.length_append] at lengths
    omega

/-! ## Guards -/

section

variable {surroundings : Surroundings} {time : Text} {disk : TaskDisk} {task : Json}
  {bytes : Bytes}

/-- What is loaded is what the file holds. -/
theorem eq_of_load {workspace current : Json} (state : disk.files.state = some bytes)
    (reads : readJson host.floats bytes = some task)
    (loads : load host workspace id disk = .ok current) : current = task := by
  obtain ⟨_, state', reads', _⟩ := load_eq_ok.mp loads
  cases state.symm.trans state'
  exact Option.some.inj (reads'.symm.trans reads)

/-- Nothing is admitted to a terminal task, and to a task with an active child nothing that
does not ask for it. -/
theorem admission_rejects {workspace : Json} {expected : Option ℤ} {allowActiveChild : Bool}
    (state : disk.files.state = some bytes) (reads : readJson host.floats bytes = some task)
    (frozen : Terminal task ∨
      (task.get "active_child").truthy = true ∧ allowActiveChild = false) :
    ∃ raised, admission host workspace id disk expected allowActiveChild = .error raised := by
  cases admitted : admission host workspace id disk expected allowActiveChild with
  | error raised => exact ⟨raised, rfl⟩
  | ok current =>
      exfalso
      unfold admission at admitted
      simp only [bind_eq_ok, require_eq_ok, exists_const] at admitted
      obtain ⟨loaded, loads, terminal, isTerminal, open_, _, child, _⟩ := admitted
      rw [eq_of_load state reads loads] at isTerminal child
      rcases frozen with ⟨stage, member, is⟩ | ⟨active, asked⟩
      · rw [inSet_eq_true.mpr ⟨stage, member, is⟩] at isTerminal
        exact open_ (Except.ok.inj isTerminal).symm
      · rcases child with inactive | allowed
        · exact inactive active
        · rw [asked] at allowed
          cases allowed

/-- A mutation that is not admitted changes no file. -/
theorem serveMutate_rejected {workspace : Json} {edit : LedgerEdit} {expected : Option ℤ}
    {allowActiveChild : Bool} {onFailure : TaskFiles → TaskFiles}
    (rejected : ∃ raised, admission host workspace id disk expected allowActiveChild = .error raised) :
    ∃ raised, serveMutate host workspace id time disk edit expected allowActiveChild onFailure =
      (.error raised, disk) := by
  obtain ⟨raised, admits⟩ := rejected
  refine ⟨raised, ?_⟩
  rw [serveMutate, admits]

/-- The call is a mutation that is allowed beside an active child. -/
def Call.AllowsChild : Call → Prop
  | .mutate _ _ allowActiveChild _ => allowActiveChild = true
  | _ => False

/-- The call is a `save`, and `_save_locked` has nothing against it. -/
def Call.Accepted (host : Host) (surroundings : Surroundings) (id time : Text) (disk : TaskDisk) :
    Call → Prop
  | .save task expected => (task.get "id").equal (.str id) = true ∧
      ∃ current, load host surroundings.workspace id disk = .ok current ∧
        PassesChecks host time disk current task expected
  | _ => False

/-- A save changes the files exactly when its checks pass. -/
theorem serveSave_iff {edited : Json} {expected : ℤ} :
    (serveSave host surroundings.workspace id time disk edited expected).2 = disk ↔
      ¬ (Call.save edited expected).Accepted host surroundings id time disk := by
  have accepts : (Call.save edited expected).Accepted host surroundings id time disk ↔
      ∃ result, perform host surroundings.workspace id time disk (.save edited expected) =
        .ok result := by
    simp only [Call.Accepted, ← saveLocked_ok_iff, perform, bind_eq_ok, require_eq_ok, exists_const]
    constructor
    · rintro ⟨named, current, loads, result, saves⟩
      exact ⟨result, named, current, loads, saves⟩
    · rintro ⟨result, named, current, loads, saves⟩
      exact ⟨named, current, loads, result, saves⟩
  rw [accepts]
  unfold serveSave
  cases performed : perform host surroundings.workspace id time disk (.save edited expected) with
  | error raised => simp
  | ok result =>
      simp only [perform, bind_eq_ok, require_eq_ok, exists_const] at performed
      obtain ⟨_, _, _, saves⟩ := performed
      have changed : result.2 ≠ disk := saveLocked_changes saves
      simp [changed]

/-- No call but `save` changes a task to which nothing is admitted. -/
theorem serve_rejected {call : Call}
    (rejected : ∀ expected allowActiveChild, (allowActiveChild = true → call.AllowsChild) →
      ∃ raised, admission host surroundings.workspace id disk expected allowActiveChild =
        .error raised) :
    (call.serve host surroundings id time disk).2 = disk ↔
      ¬ call.Accepted host surroundings id time disk := by
  have mutates (edit : LedgerEdit) (onFailure : TaskFiles → TaskFiles) :
      ∃ raised, serveMutate host surroundings.workspace id time disk edit none false onFailure =
        (.error raised, disk) :=
    serveMutate_rejected (rejected none false (by simp))
  cases call with
  | save edited expected => exact serveSave_iff
  | mutate edit expected allowActiveChild onFailure =>
      obtain ⟨raised, is⟩ := @serveMutate_rejected host id time disk surroundings.workspace edit
        expected allowActiveChild onFailure (rejected expected allowActiveChild fun asks => asks)
      refine iff_of_true ?_ not_false
      simp only [Call.serve, is]
  | recordTddCycle cycle =>
      obtain ⟨raised, is⟩ := mutates (.pure fun task _ => applyTddCycle host cycle task)
        (fun files => files)
      refine iff_of_true ?_ not_false
      simp only [Call.serve]
      split
      · rfl
      · rw [is]
  | recordFalsification receipt =>
      obtain ⟨raised, is⟩ := mutates (.pure fun task _ => applyFalsification host id receipt task)
        (fun files => files)
      refine iff_of_true ?_ not_false
      simp only [Call.serve, is]
  | recordReview receipt =>
      obtain ⟨raised, is⟩ := mutates (.pure fun task _ => applyReview host receipt task)
        (fun files => files)
      refine iff_of_true ?_ not_false
      simp only [Call.serve, is]
  | transition target reason =>
      obtain ⟨raised, is⟩ := mutates (.pure (applyTransition host surroundings target reason))
        (fun files => files)
      refine iff_of_true ?_ not_false
      simp only [Call.serve, is]
      split
      · rfl
      · split
        · rfl
        · split <;> rfl
  | auditComplete =>
      obtain ⟨raised, is⟩ := mutates (.pure (applyAudit host surroundings)) (fun files => files)
      refine iff_of_true ?_ not_false
      simp only [Call.serve, is]

end

end StateStore

namespace Evidence

variable {host : Host}

/-- An append to the ledger of a terminal task is refused before its first write. -/
theorem appendEvidence_terminal {task : Text} {arguments : Arguments} {store cut : Store}
    {bytes : Bytes} {current : Json} (state : store.files.state = some bytes)
    (reads : readJson host.floats bytes = some current)
    (terminal : StateStore.Terminal current)
    (visits : (appendEvidence host task arguments).Visits (serve host) store cut) :
    cut.files = store.files := by
  have refused : ∃ raised, checkTaskState host store.files.state = .error raised := by
    obtain ⟨stage, member, is⟩ := terminal
    have listed : stage ∈ terminalTaskStates := member
    unfold checkTaskState
    simp only [state, reads, is, require]
    rw [if_neg (not_not.mpr listed)]
    exact ⟨_, rfl⟩
  obtain ⟨raised, refuses⟩ := refused
  have meets : Program.Meets (serve host) (appendEvidence host task arguments)
      (fun cut => cut.files = store.files) (fun _ _ => True) store := by
    unfold appendEvidence
    rw [meets_ofExcept_bind]
    split
    · rw [meets_look_bind, meets_ofExcept_bind, refuses]
      exact ⟨rfl, rfl, trivial⟩
    · exact ⟨rfl, trivial⟩
  exact meets.1 cut visits

end Evidence

namespace StateStore

variable {host : Host} {id : Text}

section Cancelled

/-- A task of schema 2 that was cancelled. -/
def cancelledTask : Json := (legacyTask.set "state" (.str "CANCELLED")).set "transitions" (.arr
  [.obj (Fields.ofPairs [("at", .str "2026-01-01T00:00:00+00:00"), ("from", .str "CREATED"),
    ("to", .str "CANCELLED"), ("reason", .str "r"), ("revision", .int 1), ("epoch", .int 0)])])

/-- The task with a decision. -/
def decidedTask : Json := cancelledTask.set "decisions" (.arr [.obj (Fields.ofPairs
  [("id", .str "D-1"), ("statement", .str "s"), ("rationale", .str "r")])])

/-- SHA-256 of no bytes, of the task after its migration, of the task after a save of a decision, of
the two anchors, and of the edited task after its migration. -/
def cancelledHost : Host := tableHost
  [(0, 0xe3b0c44298fc1c149afbf4c8996fb92427ae41e4649b934ca495991b7852b855),
    (396840649, 0xd77c4b8588c634cd3aa658e19cce2e4654fe1805b9db5974b34b046d26f34019),
    (599152289, 0x7c49f6ee5620e6f83ee11b2e85729eb1f5f0dc9d0a79847012f49bdba1011c66),
    (106199581, 0x00bafc7aec63090dd0d53db0ec3dac3acb84811d7c6b4eea18079ffe7219c9e5),
    (340289596, 0x3720cdd24cb2e6048bb3029139325f97ed841b3348848cc2a672260f9472e7de),
    (846131000, 0x2d0cae23dc3cb6fa88ee3974e86daab9085d95b3f04f04815c6d6ab654ac5557)]

def cancelledDisk : TaskDisk :=
  ⟨⟨none, none, some (fileText cancelledHost cancelledTask)⟩, none, none⟩

def calmSurroundings : Surroundings where
  workspace := .obj []
  first := .obj []
  second := .obj []
  leased := false
  moment := "2026-01-01T00:00:00+00:00"
  age _ := none

/-- The call saves the cancelled task with a decision. -/
def deciding : Call := .save decidedTask 1

theorem reads_cancelledTask : readJson cancelledHost.floats (fileText cancelledHost cancelledTask) =
    some cancelledTask :=
  readJson_fileText (by decide +kernel)

example : decidedTask ≠ cancelledTask := by
  decide +kernel

theorem load_cancelledDisk :
    load cancelledHost calmSurroundings.workspace "t-1" cancelledDisk = .ok cancelledTask := by
  refine load_eq_ok.mpr ⟨_, rfl, reads_cancelledTask, ?_, ?_, ?_⟩
  · decide +kernel
  · intro versioned
    exact absurd versioned (by decide +kernel)
  · intro finished
    exact absurd finished (by decide +kernel)

theorem terminal_cancelledTask : Terminal cancelledTask :=
  ⟨"CANCELLED", by simp [Stage.terminal], rfl⟩

end Cancelled

end StateStore

end CarbonLab.Aegis
