import CarbonLab.Aegis.StateStore

/-!
# Saving a task

`create`, `save` and `mutate` of `StateStore`, and `_save_locked` below them.
-/

namespace CarbonLab.Aegis

namespace StateStore

open StateMachine

/-! ## Receipts -/

/-- `_falsification_bindings` -/
def falsificationBindings (task : Json) : List Json :=
  [task.get "id", ((currentTddCycle task).map (·.get "cycle_sha256")).getD .null,
    task.get "change_epoch", task.get "implementation_digest", task.get "diff_digest"]

/-- `_review_bindings` -/
def reviewBindings (task : Json) : Except Raised (List Json) := do
  let precheck := task.getD "precheck" (.obj [])
  return falsificationBindings task ++
    [artifactDigest (← fetch precheck "compiled_policy"), task.get "evidence_set_digest",
      artifactDigest (← fetch precheck "test_law_baseline")]

section

variable (host : Host)

/-- `_validate_bound_falsification` -/
def validateBoundFalsification (task : Json) (requireClean : Bool) : Except Raised Unit := do
  let failure := runtimeError
    "falsification receipt is missing, stale, contains a counterexample, or is invalid"
  match currentTddCycle task with
  | none => throw failure
  | some cycle =>
      require (task.get "falsification" ≠ .null) failure
      require (← Assurance.validateFalsificationReceipt host (task.get "falsification")
        (falsified task cycle) requireClean) failure

/-- `_validate_bound_review` -/
def validateBoundReview (task : Json) : Except Raised Unit := do
  let receipt := task.get "review_receipt"
  let failure := runtimeError "independent review receipt is missing or belongs to another task"
  match currentTddCycle task with
  | none => throw failure
  | some cycle =>
      require (receipt ≠ .null) failure
      require ((← fetch receipt "task_id").equal (task.get "id")) failure
      require (specialistRole host (receipt.getD "reviewer_role" (.str [])))
        (runtimeError "independent review receipt lacks an adversarial/security role")
      require (← some_ (matchesHandoff receipt) (← itemsOf task "child_history"))
        (runtimeError "review receipt is not bound to a closed accepted child lease")
      require (← Review.validateReviewReceipt host receipt (← reviewed task cycle))
        (runtimeError "independent review receipt is stale, rejected, or invalid")

/-! ## The save -/

/-- `_evidence_set_digest` -/
def evidenceSetDigest (records : List Json) : Text :=
  host.sha256 (records.flatMap fun record => encode ((record.get "record_sha256").str?.getD []))

/-- A waived gate of the constitution has its waiver. -/
def validateWaiver (records : List Json) (task : Json) (epoch : Json) (gate : Json) :
    Except Raised Unit := do
  let status ← fetch gate "status"
  if status.equal (.str "WAIVED") ∧ gate.get "gate_severity" ≠ .null then
    require (← validateGateWaiver gate records task (← host.int epoch))
      (runtimeError "REQUIRED gate waiver lacks current external trusted waiver evidence")

/-- The evidence head of a task moves along its ledger. -/
def validateHead (records : List Json) (current updated : Json) : Except Raised Unit := do
  let head := updated.get "evidence_head"
  let old := current.get "evidence_head"
  require ((Evidence.headOf records).equal head)
    (runtimeError "task evidence head is not the verified ledger head")
  if ¬ head.equal old ∧ old ≠ .null then
    require (head ≠ .null) (runtimeError "task evidence head cannot move backwards to null")
    require (records.dropLast.any fun record => (record.get "record_sha256").equal old)
      (runtimeError "evidence ledger rewrite does not extend the prior task-bound head")

/-- A receipt is dropped when what it is bound to changed. -/
def dropReceipt (field : Text) (changed : Bool) (current updated : Json) : Json :=
  if current.get field ≠ .null ∧ (updated.get field).equal (current.get field) ∧ changed then
    updated.set field .null
  else updated

/-- The task with the receipts that are still bound to it. -/
def keepReceipts (current migrated updated : Json) : Except Raised Json := do
  let attacked := dropReceipt "falsification"
    (!Json.equalItems (falsificationBindings migrated) (falsificationBindings updated))
    current updated
  let bindings ← reviewBindings migrated
  let reviewed ← reviewBindings attacked
  return dropReceipt "review_receipt" (!Json.equalItems bindings reviewed) current attacked

/-- The fields that an audit rests on. -/
def claimFields : List Text :=
  ["gates", "risks", "verification_evidence", "verification_epoch", "evidence_head", "decisions"]

/-- The audit is dropped when what it rests on changed. -/
def keepAudit (current updated : Json) : Json :=
  if (current.get "final_audit_complete").truthy ∧
      claimFields.any fun field => !(updated.get field).equal (current.get field) then
    (updated.set "final_audit_complete" (.bool false)).erase "final_audit_workspace"
  else updated

/-- What `_save_locked` computes before it touches the anchors: the current task after its
migration, and the task to store. -/
def prepare (files : TaskFiles) (current edited : Json) (expected : ℤ) (time : Text) :
    Except Raised (Json × Json) := do
  require ((current.get "revision").equal (.int expected)) (runtimeError "stale task revision")
  let migrated ← migrate host current
  let updated ← migrate host edited
  require ((updated.get "id").equal (current.get "id"))
    (runtimeError "task id mutation cannot redirect state storage")
  let id := (current.get "id").str?.getD []
  let records ← Evidence.loadEvidence host id files true
  (← itemsOf updated "gates").forM
    (validateWaiver host records (current.get "id") (updated.getD "change_epoch" (.int 0)))
  validateHead records current updated
  let updated := updated.set "evidence_set_digest" (.str (evidenceSetDigest host records))
  let updated ← keepReceipts current migrated updated
  validateAppendOnly migrated updated
  if updated.get "falsification" ≠ .null then validateBoundFalsification host updated false
  if updated.get "review_receipt" ≠ .null then validateBoundReview host updated
  let audited := keepAudit current updated
  let stored := sealTask host ((audited.set "revision" (.int (expected + 1))).set "updated"
    (.str time))
  TaskSchema.validateTask host stored (some id)
  return (migrated, stored)

/-- The path of an anchor in the history: its name. -/
def historyPath (anchor : Json) : Except Raised Text :=
  match (anchor.get "revision").int?, (anchor.get "anchor_sha256").str? with
  | some revision, some digest => do
      require (0 ≤ revision ∧ digest.length = 64)
        (runtimeError "invalid task anchor history identity")
      return historyName revision digest
  | _, _ => .error (runtimeError "invalid task anchor history identity")

/-- The contents of a JSON file. -/
def fileText (value : Json) : Bytes := jsonLine host.floats .indented value

/-- `_save_locked`, with what it returns and the files it leaves. -/
def saveLocked (disk : TaskDisk) (current edited : Json) (expected : ℤ) (time : Text) :
    Except Raised (Json × TaskDisk) := do
  let prepared ← prepare host disk.files current edited expected time
  let id := (current.get "id").str?.getD []
  let found ← loadAnchor host id disk (TaskSchema.isVersioned (current.get "schema"))
  -- Schema-2 tasks predate task anchors.
  let prior := found.getD (newAnchor host prepared.1 none)
  let anchor := newAnchor host prepared.2 (some prior)
  let priorName ← historyPath prior
  let name ← historyPath anchor
  let entries := disk.history.getD []
  let entries := if (entries.map (·.1)).contains priorName then entries
    else entries ++ [(priorName, some (fileText host prior))]
  require (name ∉ entries.map (·.1))
    ⟨.transactionError, "mutation target exists unexpectedly"⟩
  return (prepared.2, {
    files := { disk.files with state := some (fileText host prepared.2) }
    anchor := some (fileText host anchor)
    history := some (entries ++ [(name, some (fileText host anchor))]) })

/-! ## Requests -/

/-- A function that edits a task; it may also append to the ledger.  It gives back what
`json.dumps` prints of the edited task, and the files of the ledger. -/
abbrev Edit := Json → TaskFiles → Except Raised (Json × Option Bytes × Option Bytes)

/-- A call that changes a stored task. -/
inductive Request
  /-- `save(task, expected_revision)` -/
  | save (task : Json) (expected : ℤ)
  /-- `mutate(fn, expected_revision=..., allow_active_child=...)` -/
  | mutate (edit : Edit) (expected : Option ℤ) (allowActiveChild : Bool)

/-- Serve a call on a task: what it returns and the files it leaves. -/
def perform (workspace : Json) (id time : Text) (disk : TaskDisk) :
    Request → Except Raised (Json × TaskDisk)
  | .save task expected => do
      require ((task.get "id").equal (.str id))
        (runtimeError "task id mutation cannot redirect state storage")
      let current ← load host workspace id disk
      saveLocked host disk current task expected time
  | .mutate edit expected allowActiveChild => do
      let current ← load host workspace id disk
      require (¬ (← inSet (current.get "state") Stage.terminal))
        (runtimeError (text "terminal task state " ++ (current.get "state").str?.getD [] ++
          text " rejects further mutation"))
      let revision := (current.get "revision").int?.getD 0
      require (expected.all (· = revision)) (runtimeError "stale task revision")
      require (¬ (current.get "active_child").truthy ∨ allowActiveChild)
        (runtimeError "active child blocks canonical task mutation outside handoff control")
      let edited ← edit current.normalize disk.files
      saveLocked host
        { disk with files := { disk.files with ledger := edited.2.1, anchor := edited.2.2 } }
        current edited.1 revision time

/-- The task that `create` stores. -/
def newTask (id title mode complexity risk time : Text) : Json :=
  sealed host "integrity_sha256" [("schema", .int 4), ("id", .str id), ("title", .str title),
    ("mode", .str mode), ("complexity", .str complexity), ("risk", .str risk),
    ("state", .str "CREATED"), ("revision", .int 0), ("created", .str time),
    ("updated", .str time), ("precheck", .obj []),
    ("tdd", .obj (Fields.ofPairs TaskSchema.emptyTdd)), ("gates", .arr []), ("risks", .arr []),
    ("decisions", .arr []), ("child_history", .arr []), ("verification_evidence", .arr []),
    ("verification_epoch", .null), ("change_epoch", .int 0), ("final_audit_complete", .bool false),
    ("active_child", .null), ("previous_state", .null), ("transitions", .arr []),
    ("material_claim", .bool true), ("evidence_head", .null),
    ("evidence_set_digest", .str (host.sha256 [])), ("implementation_digest", .null),
    ("diff_digest", .null), ("falsification", .null), ("review_receipt", .null)]

/-- `create`, under a new identifier: the task and its files. -/
def create (id title mode complexity risk time : Text) : Except Raised (Json × TaskDisk) := do
  require (strip title ≠ []) (valueError "task title must not be empty")
  require (mode ∈ TaskSchema.modes ∧ complexity ∈ TaskSchema.complexities ∧
      risk ∈ TaskSchema.severities)
    (valueError "invalid task mode, complexity, or risk")
  let id ← TaskSchema.validateTaskId (.str id)
  let task := newTask host id (strip title) mode complexity risk time
  let anchor := newAnchor host task none
  let name ← historyPath anchor
  return (task, {
    files := ⟨none, none, some (fileText host task)⟩
    anchor := some (fileText host anchor)
    history := some [(name, some (fileText host anchor))] })

end

end StateStore

end CarbonLab.Aegis
