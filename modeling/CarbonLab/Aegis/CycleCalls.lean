import CarbonLab.Aegis.CycleSave
import CarbonLab.Aegis.ImplementCalls

/-!
# Calls that record a cycle

A step of a cycle is recorded exactly when the cycle is not aborted after a baseline, its
digests are digests, the task could be saved as it is, and no receipt of the task is left
without being valid.
-/

namespace CarbonLab.Aegis

namespace StateStore

open StateMachine Assurance

variable {host : Host} {id : Text}

/-- What a step of a cycle needs to be recorded, where the next anchor has a name. -/
structure Recordable (host : Host) (id : Text) (disk : TaskDisk) (task next : Json)
    (records : List Json) (epoch : ℤ) (name : Text) : Prop where
  unaborted : next.get "status" = .str "TDD_CYCLE_ABORTED" → baselineOf next = none
  fits : Fits next
  waived : ∀ gate ∈ itemsUnder task "gates", WaivedAt records (.str id) epoch gate
  continuable : Continuable task
  receipts : ReceiptsFit host task (underCycle task next (evidenceSetDigest host records))
  anchorable : Anchorable host id disk task name

section

variable {surroundings : Surroundings} {time : Text} {disk : TaskDisk} {task cycle next : Json}
  {records : List Json} {revision : ℤ} {from_ : Stage} {before status : Text} {events added : List Json}
  {fields : List (Text × Json)}

theorem exists_modeOf {cycle : Json} (sound : Sound host cycle status events) :
    ∃ expected observed, modeOf cycle = .ok (expected, observed) := by
  obtain ⟨mode, member, is⟩ := sound.mode
  rw [modeOf, is]
  simp only [tddModes, List.map_cons, List.map_nil, List.mem_cons, List.not_mem_nil, or_false] at member
  rcases member with rfl | rfl | rfl
  · exact ⟨_, _, rfl⟩
  · exact ⟨_, _, rfl⟩
  · exact ⟨_, _, rfl⟩

/-- A step of a cycle of a valid task. -/
theorem advancing_of_valid (plain : task.Plain)
    (valid : TaskSchema.validateTask host task (some id) = .ok ()) (stored : cycle ∈ cyclesOf task)
    (stepped : Stepped host cycle next before status events fields added) :
    ∃ tdd earlier later expected observed, Advancing host id task tdd cycle next earlier later before
      status expected observed events fields added := by
  obtain ⟨_, valid_, _⟩ := validateTask_eq_ok.mp valid
  obtain ⟨expected, observed, mode⟩ := exists_modeOf stepped.next_sound
  rw [cyclesOf, Json.getD] at stored
  cases there : task.get? "tdd" with
  | none =>
      rw [there] at stored
      cases stored
  | some tdd =>
      obtain ⟨cycles, contract⟩ := validateTdd_eq_ok.mp (valid_ tdd there)
      rw [there, Option.getD_some, listD, Json.getD, contract.cyclesAre] at stored
      obtain ⟨earlier, later, is⟩ := List.append_of_mem stored
      have split_ : cycles = earlier ++ cycle :: later := is
      rw [split_] at contract
      exact ⟨tdd, earlier, later, expected, observed, plain, (valid_of_validateTask valid).object, there,
        contract, stepped, mode⟩

/-- A valid cycle of the task is handed on to `mutate`. -/
theorem serve_recordTddCycle_iff {stored : Json} {after : TaskDisk} (plain : task.Plain)
    (loads : load host surroundings.workspace id disk = .ok task) (open_ : ¬ Terminal task)
    (named : (task.get "state").str?.isSome = true) (idle : (task.get "active_child").truthy = false)
    (revisionIs : task.get? "revision" = some (.int revision))
    (passes : validateTddCycle host next = .ok ())
    (owned : (next.get "task_id").equal (.str id) = true) :
    (Call.recordTddCycle next).serve host surroundings id time disk = (.ok stored, after) ↔
      ∃ edited, applyTddCycle host next task = .ok edited ∧
        saveLocked host disk task edited revision time = .ok (stored, after) := by
  rw [← @serveMutate_iff host id surroundings time disk task revision
    (fun task _ => applyTddCycle host next task) stored after plain loads open_ named idle revisionIs]
  have checked : (do
      validateTddCycle host next
      require ((next.get "task_id").equal (.str id))
        (assuranceError "TDD cycle belongs to another task")) = .ok () := by
    rw [passes, owned]
    rfl
  rw [Call.serve, checked]

/-- A step of a cycle is recorded, and the summary of the task agrees with the cycle, exactly when it
is recordable.  Of a task of schema 2 there is one name, whatever its history is, that must not be
taken. -/
theorem record_tdd_cycle_iff (numeric : host.floats.Numeric) (timely : strip time ≠ [])
    (loads : load host surroundings.workspace id disk = .ok task) (open_ : ¬ Terminal task)
    (idle : (task.get "active_child").truthy = false)
    (ledger : Evidence.loadEvidence host id disk.files true = .ok records)
    (heads : (Evidence.headOf records).equal (task.get "evidence_head") = true)
    (stored : cycle ∈ cyclesOf task) (step : CycleStep host cycle next) :
    ∃ revision epoch digest, task.get "revision" = .int revision ∧
      task.get "change_epoch" = .int epoch ∧ digest.length = 64 ∧
      ∀ history, load host surroundings.workspace id { disk with history := history } = .ok task →
        ((∃ stored after, (Call.recordTddCycle next).serve host surroundings id time
            { disk with history := history } = (.ok stored, after) ∧
            Summarizes stored next.normalize) ↔
          Recordable host id { disk with history := history } task next records epoch
            (historyName (revision + 1) digest)) := by
  obtain ⟨bytes, _, reads, valid, _⟩ := load_eq_ok.mp loads
  have plain := plain_of_readJson numeric reads
  obtain ⟨from_, revision, epoch, gates, risks, moves, situation⟩ := situation_of_valid plain valid
  obtain ⟨before, status, events, fields, added, stepped⟩ := step.stepped
  obtain ⟨tdd, earlier, later, expected, observed, advancing⟩ := advancing_of_valid plain valid stored
    stepped
  have revisionIs := get_of_get? situation.revisionIs
  have named : (task.get "state").str?.isSome = true := by
    rw [get_of_get? situation.stateIs]
    rfl
  have owned : (next.get "task_id").equal (.str id) = true := by
    rw [stepped.get_kept (by simp [stepFields])]
    exact (validateCycle_eq_ok.mp (advancing.contract.each cycle (by simp))).2
  have idIs : (task.get "id").str?.getD [] = id := by
    rw [(valid_of_validateTask valid).id_]
    rfl
  have edits (edited : Json) := @applyTddCycle_iff host id task tdd cycle next edited before status
    expected observed events added earlier later fields stepped advancing.there advancing.contract
    advancing.mode
  have aborted : next.get "status" = .str "TDD_CYCLE_ABORTED" ↔ status = text "TDD_CYCLE_ABORTED" := by
    rw [stepped.statusIs, Json.str.injEq]
  obtain ⟨moved, migrated, _, migrates, migration, _⟩ := migrated_of_situation situation
  have carried : migrated.get "revision" = .int revision :=
    get_of_get? ((migration.kept _ (by simp [migratedFields, migrationDefaults])).trans
      situation.revisionIs)
  obtain ⟨kept, counted, tddIs, prepares⟩ := advancing.prepare_recorded_iff situation migrates timely
    idle ledger heads
  refine ⟨revision, epoch, anchorDigest host (newAnchor host kept
    (some (priorAnchor host disk migrated))), revisionIs, get_of_get? situation.epochIs,
    Host.digest_length _, fun history loads => ?_⟩
  have serves (stored : Json) (after : TaskDisk) :=
    @serve_recordTddCycle_iff host id surroundings time { disk with history := history } task next
      revision stored after plain loads open_ named idle situation.revisionIs stepped.valid owned
  have saves (prepared : prepare host disk.files task (recordedTask host task tdd next
      (earlier ++ next.normalize :: later) expected) revision time = .ok (migrated, kept)) :=
    @saveLocked_iff_of_prepare host id time { disk with history := history } task revision
      surroundings.workspace _ migrated kept loads idIs revisionIs situation.low prepared carried counted
  constructor
  · rintro ⟨stored, after, done, _⟩
    obtain ⟨edited, applied, saved⟩ := (serves stored after).mp done
    obtain ⟨unaborted, is⟩ := (edits edited).mp applied
    subst is
    obtain ⟨migrated', prepared⟩ := prepare_of_saveLocked saved
    obtain ⟨⟨fits, waived, continuable, receipts⟩, same⟩ := (prepares _).mp prepared
    cases same
    exact ⟨fun is => unaborted (aborted.mp is), fits, waived, continuable, receipts,
      (saves prepared).mp ⟨after, saved⟩⟩
  · rintro ⟨unaborted, fits, waived, continuable, receipts, anchorable⟩
    have applied := (edits _).mpr ⟨fun is => unaborted (aborted.mpr is), rfl⟩
    have prepared := (prepares _).mpr ⟨⟨fits, waived, continuable, receipts⟩, rfl⟩
    obtain ⟨after, saved⟩ := (saves prepared).mpr anchorable
    exact ⟨kept, after, (serves kept after).mpr ⟨_, applied, saved⟩,
      advancing.summarizes fits tddIs⟩

end

section Aborted

/-- The digests of a cycle with a baseline, of the cycle when it is aborted, and of a task with it. -/
def baselineDigest : ℕ := 0x609e3ee15be597c4da05025623cccac30850d521ff9116ee290d34463b8d7640

def abortedDigest : ℕ := 0xb23f372084c965de856163cace698067bf20c79210da7468c4744679d384beb7

def cycleTaskDigest : ℕ := 0xb5d4eb4d89d0bd1e9ee26d4bb6e08fa13a6761c39d6c85a7f64230bb81fe99a0

/-- SHA-256 of no bytes, of the cycles, and of the task and its anchor. -/
def cycleHost : Host :=
  { tableHost [(0, 0xe3b0c44298fc1c149afbf4c8996fb92427ae41e4649b934ca495991b7852b855),
    (27085856, baselineDigest), (381649256, abortedDigest), (157971175, cycleTaskDigest),
    (686447376, 0xabed9e0fff47e9bead1bda88bab0fba2b159e60d6d8be05bf9bfef23c10c6186)] with
    floats := finiteFloats }

def cycleTime : Text := "2026-01-01T00:00:00+00:00"

/-- A digest that stands for every file. -/
def blankDigest : Json := .str (hexText 0)

/-- The fields that the events of the baseline share. -/
def sharedFields : List (Text × Json) :=
  [("baseline_implementation_digest", blankDigest), ("test_contract_digest", blankDigest),
    ("oracle_digest", blankDigest), ("command", .arr [.str "t"]), ("environment_digest", blankDigest),
    ("output_digest", blankDigest), ("semantic_reason", .str "r"), ("harness_valid", .bool true),
    ("baseline_intact", .bool true)]

/-- A cycle with a baseline. -/
def baselineCycle : Json := (Json.obj (Fields.ofPairs
  [("schema", .int 1), ("task_id", .str "t-1"), ("cycle_id", .str "C-1"),
    ("mode", .str "RED_REQUIRED"), ("status", .str "RED_OBSERVED"), ("remediation", .bool false),
    ("discovered_epoch", .null), ("designed_at_revision", .int 5),
    ("test_contract_digest", blankDigest), ("oracle_digest", blankDigest),
    ("frozen_test_contract_digest", blankDigest), ("frozen_oracle_digest", blankDigest),
    ("baseline_implementation_digest", blankDigest), ("baseline_epoch", .int 0),
    ("green_epoch", .null),
    ("events", .arr [event "TEST_DESIGNED" cycleTime [("task_revision", .int 5),
        ("test_contract_digest", blankDigest), ("oracle_digest", blankDigest),
        ("remediation", .bool false)],
      event "BASELINE_EXECUTED" cycleTime (("outcome", .str "RED") :: sharedFields),
      event "RED_OBSERVED" cycleTime sharedFields,
      event "TEST_CONTRACT_FROZEN" cycleTime [("test_contract_digest", blankDigest),
        ("oracle_digest", blankDigest)]])])).set "cycle_sha256" (.str (hexText baselineDigest))

def abortedCycle : Json :=
  (addEvents (baselineCycle.set "status" (.str "TDD_CYCLE_ABORTED"))
    [event "TDD_CYCLE_ABORTED" cycleTime [("reason", .str "r")]]).set "cycle_sha256"
      (.str (hexText abortedDigest))

/-- A task whose cycle has a baseline. -/
def cycleTask : Json := (Json.obj (Fields.ofPairs
  [("schema", .int 4), ("id", .str "t-1"), ("title", .str "t"), ("mode", .str "read"),
    ("complexity", .str "S"), ("risk", .str "low"), ("state", .str "BASELINE"), ("revision", .int 8),
    ("created", .str cycleTime), ("updated", .str cycleTime), ("precheck", .obj []),
    ("tdd", .obj (Fields.ofPairs [("mode", .str "RED_REQUIRED"), ("test_design_complete", .bool true),
      ("baseline_executed", .bool true), ("baseline_outcome", .str "RED"),
      ("required_baseline_outcome", .str "RED"), ("test_contract_digest", blankDigest),
      ("frozen_test_contract_digest", blankDigest), ("oracle_digest", blankDigest),
      ("frozen_oracle_digest", blankDigest), ("baseline_implementation_digest", blankDigest),
      ("observed_implementation_digest", blankDigest), ("harness_valid", .bool true),
      ("baseline_intact", .bool true), ("semantic_reason", .str "r"), ("active_cycle_id", .str "C-1"),
      ("green_epoch", .null), ("cycles", .arr [baselineCycle])])),
    ("gates", .arr []), ("risks", .arr []), ("decisions", .arr []), ("child_history", .arr []),
    ("verification_evidence", .arr []), ("verification_epoch", .null), ("change_epoch", .int 0),
    ("final_audit_complete", .bool false), ("active_child", .null), ("previous_state", .null),
    ("transitions", .arr [waivedMove .created .discover 1, waivedMove .discover .precheck 2,
      waivedMove .precheck .triage 3, waivedMove .triage .plan 4, waivedMove .plan .testDesign 5,
      waivedMove .testDesign .baseline 7]),
    ("material_claim", .bool true), ("evidence_head", .null),
    ("evidence_set_digest", .str (cycleHost.sha256 [])), ("implementation_digest", .null),
    ("diff_digest", .null), ("falsification", .null), ("review_receipt", .null)])).set
      "integrity_sha256" (.str (hexText cycleTaskDigest))

/-- An anchor of the time before the histories. -/
def cycleAnchor : Json := sealed cycleHost "anchor_sha256"
  [("schema", .int 1), ("task_id", .str "t-1"), ("revision", .int 8),
    ("state_sha256", .str (hexText cycleTaskDigest))]

def cycleDisk : TaskDisk where
  files := ⟨none, none, some (fileText cycleHost cycleTask)⟩
  anchor := some (fileText cycleHost cycleAnchor)
  history := none

example : (cycleTask.get "state").equal (.str Stage.baseline.name) = true := by
  decide +kernel

theorem plain_cycleTask : cycleTask.Plain := by
  decide +kernel

theorem intact_cycleAnchor : Intact cycleHost "t-1" cycleAnchor :=
  ⟨by decide +kernel, by decide +kernel, by decide +kernel, by decide +kernel,
    fun new => absurd new (by decide +kernel)⟩

theorem loadAnchor_cycleDisk :
    loadAnchor cycleHost "t-1" cycleDisk true = .ok (some cycleAnchor) := by
  have plain : cycleAnchor.Plain := by decide +kernel
  have history : validateAnchorHistory cycleHost "t-1" none cycleAnchor = .ok () := by decide +kernel
  exact loadAnchor_eq_some.mpr ⟨_, rfl, readJson_fileText plain, intact_cycleAnchor, history⟩

theorem load_cycleDisk : load cycleHost calmSurroundings.workspace "t-1" cycleDisk =
    .ok cycleTask := by
  have valid : TaskSchema.validateTask cycleHost cycleTask (some (text "t-1")) = .ok () := by
    decide +kernel
  have matches_ : Matches cycleAnchor cycleTask := ⟨by decide +kernel, by decide +kernel⟩
  have unfinished : (cycleTask.get "state").equal (.str "FINALIZE") = false := by decide +kernel
  refine load_eq_ok.mpr ⟨_, rfl, readJson_fileText plain_cycleTask, valid, ?_, ?_⟩
  · intro _
    exact ⟨cycleAnchor, loadAnchor_cycleDisk, matches_⟩
  · intro finished
    rw [unfinished] at finished
    cases finished

example : cycleAnchor.get? "history_origin_revision" = none := by
  decide +kernel

theorem open_cycleTask : ¬ Terminal cycleTask := by
  rintro ⟨stage, member, is⟩
  have state : cycleTask.get "state" = .str "BASELINE" := by decide +kernel
  rw [state, Json.str.injEq] at is
  subst is
  simp [Stage.terminal] at member

theorem revision_cycleTask : cycleTask.get? "revision" = some (.int 8) := by
  decide +kernel

theorem abort_baselineCycle :
    abortTddCycle cycleHost cycleTime baselineCycle "r" = .ok abortedCycle := by
  decide +kernel

theorem member_baselineCycle : baselineCycle ∈ cyclesOf cycleTask := by
  decide +kernel

example : abortedCycle ≠ baselineCycle := by
  decide +kernel

theorem record_tdd_cycle_iff_aborted :
    ∃ revision epoch digest, cycleTask.get "revision" = .int revision ∧
      cycleTask.get "change_epoch" = .int epoch ∧ digest.length = 64 ∧
      ∀ history, load cycleHost calmSurroundings.workspace "t-1"
          { cycleDisk with history := history } = .ok cycleTask →
        ((∃ stored after, (Call.recordTddCycle abortedCycle).serve cycleHost calmSurroundings "t-1"
            cycleTime { cycleDisk with history := history } = (.ok stored, after) ∧
            Summarizes stored abortedCycle.normalize) ↔
          Recordable cycleHost "t-1" { cycleDisk with history := history } cycleTask abortedCycle []
            epoch (historyName (revision + 1) digest)) :=
  record_tdd_cycle_iff numeric_finiteFloats (by decide) load_cycleDisk open_cycleTask
    (by decide +kernel) (by decide +kernel) (by decide +kernel) member_baselineCycle
    (.abort cycleTime "r" abort_baselineCycle)

/-- A cycle that was aborted after its baseline is not recorded. -/
theorem abortedCycle_refused :
    cycleHost.floats.Numeric ∧
      load cycleHost calmSurroundings.workspace "t-1" cycleDisk = .ok cycleTask ∧
      ¬ Terminal cycleTask ∧ (cycleTask.get "active_child").truthy = false ∧
      Evidence.loadEvidence cycleHost "t-1" cycleDisk.files true = .ok [] ∧
      (Evidence.headOf []).equal (cycleTask.get "evidence_head") = true ∧
      baselineCycle ∈ cyclesOf cycleTask ∧ CycleStep cycleHost baselineCycle abortedCycle ∧
      ¬ ∃ stored after, (Call.recordTddCycle abortedCycle).serve cycleHost calmSurroundings "t-1"
        cycleTime cycleDisk = (.ok stored, after) := by
  refine ⟨numeric_finiteFloats, load_cycleDisk, open_cycleTask, by decide +kernel, by decide +kernel,
    by decide +kernel, member_baselineCycle, .abort cycleTime "r" abort_baselineCycle, ?_⟩
  rintro ⟨stored, after, done⟩
  have passes : validateTddCycle cycleHost abortedCycle = .ok () := by decide +kernel
  obtain ⟨edited, applied, _⟩ := (serve_recordTddCycle_iff plain_cycleTask load_cycleDisk open_cycleTask
    (by decide +kernel) (by decide +kernel) revision_cycleTask passes (by decide +kernel)).mp done
  have fails : (applyTddCycle cycleHost abortedCycle cycleTask).toOption.isNone = true := by
    decide +kernel
  rw [applied] at fails
  cases fails

end Aborted

end StateStore

end CarbonLab.Aegis
