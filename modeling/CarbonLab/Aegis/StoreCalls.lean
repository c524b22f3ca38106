import CarbonLab.Aegis.TaskSave

/-!
# The calls of the store

The public operations of `StateStore` on a stored task: `save`, `mutate` and the
operations that mutate a task by a function of their own.  A call is served with the
files that it leaves, also when it raises.
-/

namespace CarbonLab.Aegis

namespace StateStore

open StateMachine

/-- What the calls see outside the store. -/
structure Surroundings where
  /-- `workspace_fingerprint` while a task is loaded. -/
  workspace : Json
  /-- The two fingerprints that a finalization takes; an audit takes the first. -/
  first : Json
  second : Json
  /-- `inspect().get("exists")` of the global subagent lease. -/
  leased : Bool
  /-- `now()` while a transition is applied. -/
  moment : Text
  /-- The age in seconds of a timestamp with a time zone, if it is one. -/
  age : Text → Option ℚ

/-- A failure of a proof. -/
def proofError (why : Text) (proof : Json) : Raised :=
  runtimeError (why ++ proof.str?.getD [])

section

variable (host : Host)

/-! ## Proofs -/

/-- A number of seconds that is finite and positive; booleans are no numbers. -/
def seconds? (value : Json) : Option ℚ :=
  match value with
  | .bool _ => none
  | _ => match value.number? with
    | some (.finite number) => if 0 < number then some number else none
    | _ => none

/-- What a proof from an external source tells about its source. -/
def validateSource (age : Text → Option ℚ) (details proof : Json) : Except Raised Unit := do
  match (details.get "observed_at").str?, seconds? (details.get "ttl_seconds") with
  | some observed, some ttl =>
      require (isText (details.get "source_identity") ∧ isText (details.get "source_fingerprint"))
        (proofError "external-source proof lacks bound source identity/fingerprint/freshness: " proof)
      match age observed with
      | none =>
          throw (proofError "external-source proof has invalid observation timestamp: " proof)
      | some age =>
          require (-300 ≤ age ∧ age ≤ ttl)
            (proofError "external-source proof is stale or future-dated: " proof)
  | _, _ =>
      throw (proofError
        "external-source proof lacks bound source identity/fingerprint/freshness: " proof)

/-- A record that a task names as a proof. -/
def validateProof (age : Text → Option ℚ) (task : Json) (epoch : ℤ) (finalizing : Bool)
    (proof record : Json) : Except Raised Unit := do
  require ((record.getD "schema" (.int 1)).equal (.int 2) ∧
      (record.get "task_id").equal (task.get "id"))
    (proofError "proof is not task-bound framework evidence: " proof)
  require ((record.get "change_epoch").equal (.int epoch))
    (proofError "proof is stale for current implementation epoch: " proof)
  require (← inSet (record.get "provenance")
      ["framework-command", "verified-observation", "external-source"])
    (proofError "manual/fabricated evidence cannot satisfy verification: " proof)
  let details := record.getD "details" (.obj [])
  let command ← fetch details "command"
  require (¬ ((record.get "provenance").equal (.str "framework-command") ∧
      ¬ (command.obj?.isSome ∧ command.get "success" = .bool true)))
    (proofError "failed/unexecuted command cannot satisfy verification: " proof)
  if (record.get "provenance").equal (.str "external-source") then
    validateSource age details proof
  if finalizing then
    let audited := task.get "final_audit_workspace"
    let observed ← fetch details "workspace"
    require (audited.obj?.isSome ∧ (audited.get "available").truthy)
      (runtimeError "final audit has no available workspace fingerprint")
    require (observed.obj?.isSome ∧ (observed.get "sha256").equal (audited.get "sha256"))
      (proofError "proof workspace does not match final audit: " proof)

/-- `by_id[proof]` -/
def recordOf (records : List Json) (proof : Json) : Except Raised Json :=
  match records.reverse.find? fun record => (record.get "id").equal proof with
  | some record => .ok record
  | none => .error ⟨.keyError, proof.str?.getD []⟩

/-- The proofs of a proven gate. -/
def validateGateProofs (records : List Json) (gate : Json) : Except Raised Unit := do
  if (← fetch gate "status").equal (.str "PROVEN") then
    (← itemsOf gate "evidence").forM fun proof => do
      let details := (← recordOf records proof).getD "details" (.obj [])
      let gates ← fetchD details "gate_ids" (.arr [])
      require (← contains gates (gate.get "id"))
        (proofError "gate proof lacks explicit relevance binding: " proof)
      let created ← host.int (gate.getD "created_revision" (.int 0))
      require (created ≤ (← host.int (details.getD "task_revision" (.int (-1)))))
        (proofError "gate proof predates gate definition: " proof)

/-- `_validate_proofs` -/
def validateProofs (surroundings : Surroundings) (task : Json) (files : TaskFiles)
    (finalizing : Bool) : Except Raised Unit := do
  let records ← Evidence.loadEvidence host ((task.get "id").str?.getD []) files true
  require ((Evidence.headOf records).equal (task.get "evidence_head"))
    (runtimeError "task evidence anchor does not match evidence ledger")
  let direct ← itemsOf task "verification_evidence"
  let gates ← itemsOf task "gates"
  let proven ← gates.mapM fun gate => do
    if (← fetch gate "status").equal (.str "PROVEN") then itemsOf gate "evidence" else pure []
  let proofs := direct ++ proven.flatten
  require (proofs.all fun proof => records.any fun record => (record.get "id").equal proof)
    (runtimeError "task references missing evidence: ")
  let epoch ← host.int (task.getD "change_epoch" (.int 0))
  proofs.forM fun proof => do
    validateProof surroundings.age task epoch finalizing proof (← recordOf records proof)
  gates.forM (validateGateProofs host records)

/-! ## Transitions -/

/-- A gate after its implementation changed. -/
def reopenGate (gate : Json) : Json :=
  if (gate.get "status").equal (.str "PROVEN") then
    (gate.set "status" (.str "OPEN")).set "evidence" (.arr [])
  else gate

/-- A risk after its implementation changed. -/
def reopenRisk (risk : Json) : Json :=
  if (risk.get "status").equal (.str "resolved") ∧
      (risk.getD "reopen_on_change" (.bool true)).truthy then
    (risk.set "status" (.str "open")).erase "resolution"
  else risk

/-- Every item of a list field is changed. -/
def mapItems (task : Json) (field : Text) (change : Json → Json) : Json :=
  match (task.get field).arr? with
  | some items => task.set field (.arr (items.map change))
  | none => task

/-- No receipt and no audit is left. -/
def forgetReceipts (task : Json) : Json :=
  (((task.set "falsification" .null).set "review_receipt" .null).set "final_audit_complete"
    (.bool false)).erase "final_audit_workspace"

/-- A task whose implementation is about to change. -/
def nextEpoch (task : Json) : Except Raised Json := do
  let epoch ← host.int (task.getD "change_epoch" (.int 0))
  let task := ((task.set "change_epoch" (.int (epoch + 1))).set "verification_evidence"
    (.arr [])).set "verification_epoch" .null
  return mapItems (mapItems (forgetReceipts task) "gates" reopenGate) "risks" reopenRisk

/-- A task that is blocked, or no longer. -/
def markBlocked (task : Json) (target reason : Text) (old : Json) : Json :=
  if target = text "BLOCKED" then
    (task.set "previous_state" old).set "block_reason" (.str (strip reason))
  else if old.equal (.str "BLOCKED") then
    (task.set "previous_state" .null).erase "block_reason"
  else task

/-- `{"at": now(), "from": old, "to": target, ...}` -/
def move (task : Json) (target reason time : Text) (old : Json) : Except Raised Json := do
  let revision ← host.int (task.getD "revision" (.int 0))
  let epoch ← host.int (task.getD "change_epoch" (.int 0))
  return .obj (Fields.ofPairs [("at", .str time), ("from", old), ("to", .str target),
    ("reason", .str (strip reason)), ("revision", .int (revision + 1)), ("epoch", .int epoch)])

/-- `task.setdefault(field, []).append(item)` -/
def appendItem (task : Json) (field : Text) (item : Json) : Except Raised Json :=
  match (task.getD field (.arr [])).arr? with
  | some items => .ok (task.set field (.arr (items ++ [item])))
  | none => .error ⟨.attributeError, "object has no attribute 'append'"⟩

/-- What a transition asks for beside `validate_transition`. -/
def validateClosing (surroundings : Surroundings) (task : Json) (files : TaskFiles)
    (target : Text) : Except Raised Unit := do
  if target = text "FINAL_AUDIT" ∨ target = text "FINALIZE" then
    require (¬ surroundings.leased)
      (runtimeError "global subagent lease blocks final audit/finalization")
    validateProofs host surroundings task files (target = text "FINALIZE")
  if target = text "FINALIZE" then
    let first := surroundings.first
    let audited := task.get "final_audit_workspace"
    require ((first.get "available").truthy ∧
        (first.get "sha256").equal (surroundings.second.get "sha256"))
      (runtimeError "workspace fingerprint was unavailable or changed during finalization")
    require (audited.obj?.isSome ∧ (first.get "sha256").equal (audited.get "sha256"))
      (runtimeError "workspace changed after final audit; re-verify and re-audit")

/-- The function with which `transition` mutates a task. -/
def applyTransition (surroundings : Surroundings) (target reason : Text) (task : Json)
    (files : TaskFiles) : Except Raised Json := do
  validateTransition host task target reason
  validateClosing host surroundings task files target
  let old ← item task "state"
  let task := (markBlocked task target reason old).set "state" (.str target)
  let task ←
    if target = text "IMPLEMENT" ∨ target = text "REMEDIATE" then nextEpoch host task
    else if target = text "TEST_DESIGN" then pure (forgetReceipts task)
    else pure task
  appendItem task "transitions" (← move host task target reason surroundings.moment old)

/-! ## Records -/

/-- Replace the first item that passes, or append. -/
def replaceFirst (passes : Json → Except Raised Bool) (new : Json) :
    List Json → Except Raised (List Json)
  | [] => .ok [new]
  | first :: rest => do
      if ← passes first then return new :: rest
      else return first :: (← replaceFirst passes new rest)

/-- The first item that passes. -/
def firstOf (passes : Json → Except Raised Bool) : List Json → Except Raised (Option Json)
  | [] => .ok none
  | first :: rest => do
      if ← passes first then return some first else firstOf passes rest

/-- The summary of a cycle in `tdd`. -/
def tddFields (cycle : Json) (baseline : Option Json) (expected : Text) : List (Text × Json) :=
  [("mode", cycle.get "mode"), ("test_design_complete", .bool true),
    ("baseline_executed", .bool (baseline.isSome &&
      !(cycle.get "status").equal (.str "TDD_CYCLE_ABORTED"))),
    ("baseline_outcome", (baseline.map (·.get "outcome")).getD .null),
    ("required_baseline_outcome", .str expected),
    ("test_contract_digest", cycle.get "test_contract_digest"),
    ("frozen_test_contract_digest", cycle.get "frozen_test_contract_digest"),
    ("oracle_digest", cycle.get "oracle_digest"),
    ("frozen_oracle_digest", cycle.get "frozen_oracle_digest"),
    ("baseline_implementation_digest", cycle.get "baseline_implementation_digest"),
    ("observed_implementation_digest", cycle.get "baseline_implementation_digest"),
    ("harness_valid", .bool (baseline.any fun event => event.get "harness_valid" = .bool true)),
    ("baseline_intact", .bool (baseline.any fun event => event.get "baseline_intact" = .bool true)),
    ("semantic_reason", .str ((baseline.map fun event =>
      stringOf host (event.getD "semantic_reason" (.str []))).getD [])),
    ("active_cycle_id", cycle.get "cycle_id"), ("green_epoch", cycle.get "green_epoch")]

/-- The function with which `record_tdd_cycle` mutates a task. -/
def applyTddCycle (cycle task : Json) : Except Raised Json := do
  match (cycle.get "mode").str?.bind (Assurance.tddModes.lookup ·) with
  | none => throw ⟨.keyError, (cycle.get "mode").str?.getD []⟩
  | some (expected, observed) =>
      let tdd ← item task "tdd"
      let cycles ← iterate (← item tdd "cycles")
      let cycles ← replaceFirst
        (fun entry => do return (← fetch entry "cycle_id").equal (cycle.get "cycle_id"))
        cycle.normalize cycles
      let baseline ← firstOf
        (fun event => do return (← fetch event "status").equal (.str "BASELINE_EXECUTED"))
        (← iterate (← item cycle "events"))
      let tdd := (tddFields host cycle baseline expected).foldl
        (fun tdd field => tdd.set field.1 field.2) (tdd.set "cycles" (.arr cycles))
      let known ← inSet (cycle.get "status") [observed, "GREEN_PROVEN", "TDD_CYCLE_COMPLETE"]
      require (baseline.isSome → known)
        (assuranceError "TDD cycle status contradicts its recorded baseline")
      let task := task.set "tdd" tdd
      if ← inSet (cycle.get "status") ["GREEN_PROVEN", "TDD_CYCLE_COMPLETE"] then
        return (task.set "implementation_digest" (cycle.get "green_implementation_digest")).set
          "diff_digest" (cycle.get "green_diff_digest")
      else return task

/-- The function with which `record_falsification` mutates a task. -/
def applyFalsification (id : Text) (receipt task : Json) : Except Raised Json := do
  require ((task.get "state").equal (.str "FALSIFY"))
    (runtimeError "falsification evidence may be recorded only in FALSIFY")
  let failure := assuranceError "falsification receipt is invalid or stale"
  match currentTddCycle task with
  | none => throw failure
  | some cycle =>
      require (← Assurance.validateFalsificationReceipt host receipt
        { falsified task cycle with taskId := .str id } false) failure
      return task.set "falsification" receipt.normalize

/-- The function with which `record_review` mutates a task. -/
def applyReview (receipt task : Json) : Except Raised Json := do
  require ((task.get "state").equal (.str "ADVERSARIAL_REVIEW"))
    (runtimeError "review evidence may be recorded only in ADVERSARIAL_REVIEW")
  let task := task.set "review_receipt" receipt.normalize
  validateBoundReview host task
  return task

/-- The function with which `audit_complete` mutates a task. -/
def applyAudit (surroundings : Surroundings) (task : Json) (files : TaskFiles) :
    Except Raised Json := do
  require ((task.get "state").equal (.str "FINAL_AUDIT"))
    (runtimeError "audit-complete requires task state FINAL_AUDIT")
  validateProofs host surroundings task files false
  require (¬ surroundings.leased)
    (runtimeError "global subagent lease blocks final-audit completion")
  require (surroundings.first.get "available").truthy
    (runtimeError "cannot complete final audit without an available workspace fingerprint")
  return (task.set "final_audit_workspace" surroundings.first).set "final_audit_complete"
    (.bool true)

/-! ## Calls -/

/-- A function that edits a task and may append to the ledger, with the files of the
ledger that it leaves, also when it raises. -/
abbrev LedgerEdit := Json → TaskFiles → Except Raised Json × Option Bytes × Option Bytes

/-- An edit that leaves the ledger alone. -/
def LedgerEdit.pure (edit : Json → TaskFiles → Except Raised Json) : LedgerEdit :=
  fun task files => (edit task files, files.ledger, files.anchor)

/-- A public operation of the store on a stored task. -/
inductive Call
  | save (task : Json) (expected : ℤ)
  /-- What `on_failure` does to the ledger comes last. -/
  | mutate (edit : LedgerEdit) (expected : Option ℤ) (allowActiveChild : Bool)
      (onFailure : TaskFiles → TaskFiles)
  | recordTddCycle (cycle : Json)
  | recordFalsification (receipt : Json)
  | recordReview (receipt : Json)
  | transition (target reason : Text)
  | auditComplete

/-- What `mutate` checks before it calls the function that edits the task. -/
def admission (workspace : Json) (id : Text) (disk : TaskDisk) (expected : Option ℤ)
    (allowActiveChild : Bool) : Except Raised Json := do
  let current ← load host workspace id disk
  require (¬ (← inSet (current.get "state") Stage.terminal))
    (runtimeError (text "terminal task state " ++ (current.get "state").str?.getD [] ++
      text " rejects further mutation"))
  require (expected.all (· = (current.get "revision").int?.getD 0))
    (runtimeError "stale task revision")
  require (¬ (current.get "active_child").truthy ∨ allowActiveChild)
    (runtimeError "active child blocks canonical task mutation outside handoff control")
  return current

/-- The files after an edit. -/
def afterEdit (disk : TaskDisk) (ledger : Option Bytes × Option Bytes) : TaskDisk :=
  { disk with files := { disk.files with ledger := ledger.1, anchor := ledger.2 } }

/-- `mutate`, with the files that it leaves. -/
def serveMutate (workspace : Json) (id time : Text) (disk : TaskDisk) (edit : LedgerEdit)
    (expected : Option ℤ) (allowActiveChild : Bool) (onFailure : TaskFiles → TaskFiles) :
    Except Raised Json × TaskDisk :=
  match admission host workspace id disk expected allowActiveChild with
  | .error raised => (.error raised, disk)
  | .ok current =>
      let edited := edit current.normalize disk.files
      let disk := afterEdit disk edited.2
      match edited.1.bind fun task => saveLocked host disk current task
          ((current.get "revision").int?.getD 0) time with
      | .ok (stored, disk) => (.ok stored, disk)
      | .error raised => (.error raised, { disk with files := onFailure disk.files })

/-- `save`, with the files that it leaves. -/
def serveSave (workspace : Json) (id time : Text) (disk : TaskDisk) (task : Json) (expected : ℤ) :
    Except Raised Json × TaskDisk :=
  match perform host workspace id time disk (.save task expected) with
  | .ok (stored, disk) => (.ok stored, disk)
  | .error raised => (.error raised, disk)

/-- Serve a call at a time: what it returns or raises, and the files it leaves. -/
def Call.serve (surroundings : Surroundings) (id time : Text) (disk : TaskDisk) :
    Call → Except Raised Json × TaskDisk
  | .save task expected => serveSave host surroundings.workspace id time disk task expected
  | .mutate edit expected allowActiveChild onFailure =>
      serveMutate host surroundings.workspace id time disk edit expected allowActiveChild onFailure
  | .recordTddCycle cycle =>
      match (do
        Assurance.validateTddCycle host cycle
        require ((cycle.get "task_id").equal (.str id))
          (assuranceError "TDD cycle belongs to another task")) with
      | .error raised => (.error raised, disk)
      | .ok _ => serveMutate host surroundings.workspace id time disk
          (.pure fun task _ => applyTddCycle host cycle task) none false fun files => files
  | .recordFalsification receipt =>
      serveMutate host surroundings.workspace id time disk
        (.pure fun task _ => applyFalsification host id receipt task) none false fun files => files
  | .recordReview receipt =>
      serveMutate host surroundings.workspace id time disk
        (.pure fun task _ => applyReview host receipt task) none false fun files => files
  | .transition target reason =>
      if strip reason = [] then (.error (valueError "transition reason must not be empty"), disk)
      else
        match load host surroundings.workspace id disk with
        | .error raised => (.error raised, disk)
        | .ok existing =>
            if (existing.get "state").equal (.str target) ∧ target = text "FINALIZE" then
              (.ok existing, disk)
            else
              let mutated := serveMutate host surroundings.workspace id time disk
                (.pure (applyTransition host surroundings target reason)) none false
                fun files => files
              match mutated with
              | (.error raised, disk) => (.error raised, disk)
              | (.ok stored, disk) =>
                  if target = text "FINALIZE" then
                    (load host surroundings.workspace id disk, disk)
                  else (.ok stored, disk)
  | .auditComplete =>
      serveMutate host surroundings.workspace id time disk
        (.pure (applyAudit host surroundings)) none false fun files => files

end

end StateStore

end CarbonLab.Aegis
