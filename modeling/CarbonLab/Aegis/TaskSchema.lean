import CarbonLab.Aegis.StateMachine

/-!
# The schema of a task

`validate_task` of `state_store.py`, check by check.
-/

namespace CarbonLab.Aegis

namespace TaskSchema

/-- A failure of the schema. -/
def schemaError (why : Text) : Raised := runtimeError (text "state schema: " ++ why)

/-- `MODES` -/
def modes : List Text := ["read", "write"]

/-- `COMPLEXITIES` -/
def complexities : List Text := ["S", "M", "L", "XL"]

/-- `RISKS` -/
def severities : List Text := ["low", "medium", "high", "critical"]

/-- `GATE_STATUSES` -/
def gateStatuses : List Text := ["OPEN", "PROVEN", "WAIVED"]

/-- `RISK_STATUSES` -/
def riskStatuses : List Text := ["open", "resolved"]

/-- The outcomes of a baseline. -/
def baselineOutcomes : List Text := ["RED", "CHARACTERIZED", "TEST_FIRST"]

/-- The fields that every task has, sorted. -/
def required : List Text :=
  ["active_child", "change_epoch", "child_history", "complexity", "created", "decisions",
    "final_audit_complete", "gates", "id", "mode", "precheck", "previous_state", "revision",
    "risk", "risks", "schema", "state", "title", "transitions", "updated",
    "verification_epoch", "verification_evidence"]

/-- `_empty_tdd` -/
def emptyTdd : List (Text × Json) :=
  [("mode", .null), ("test_design_complete", .bool false), ("baseline_executed", .bool false),
    ("baseline_outcome", .null), ("required_baseline_outcome", .null),
    ("test_contract_digest", .null), ("frozen_test_contract_digest", .null),
    ("oracle_digest", .null), ("frozen_oracle_digest", .null),
    ("baseline_implementation_digest", .null), ("observed_implementation_digest", .null),
    ("harness_valid", .bool false), ("baseline_intact", .bool false), ("semantic_reason", .str []),
    ("active_cycle_id", .null), ("green_epoch", .null), ("cycles", .arr [])]

/-- `validate_task_id` of a string. -/
def validateTaskId (value : Json) : Except Raised Text :=
  match value.str? with
  | some string =>
      if isCanonicalName "-" string then .ok string
      else .error (valueError "task id must be 1-64 canonical lowercase letters/digits/hyphens")
  | none => .error (valueError "task id must be 1-64 canonical lowercase letters/digits/hyphens")

/-- A field that must be one of some strings. -/
def requireOneOf (task : Json) (field : Text) (names : List Text) (why : Text) :
    Except Raised Unit := do
  require (← inSet (task.get field) names) (schemaError why)

/-- `null` or a string that passes. -/
def nullOr (value : Json) (check : Json → Bool) : Bool := value = .null || check value

/-- The version, the identity and the plain fields of a task; its identifier. -/
def validateHeader (task : Json) (expectedId : Option Text) : Except Raised Text := do
  require task.obj?.isSome (schemaError "task must be an object")
  let schema := task.get "schema"
  require (← inNumbers schema [2, 3, 4]) (schemaError "unsupported version ")
  let missing := required.filter fun field => (task.get? field).isNone
  require (missing = []) (schemaError (text "missing required fields: " ++ commas missing))
  require (schema.equal (.int 4) → (task.get? "tdd").isSome)
    (schemaError "missing required fields: tdd")
  let id ← validateTaskId (task.get "id")
  require (expectedId.all (· = id))
    (runtimeError "state file task id does not match owning task directory")
  requireOneOf task "mode" modes "invalid mode"
  requireOneOf task "complexity" complexities "invalid complexity"
  requireOneOf task "risk" severities "invalid risk"
  requireOneOf task "state" (Stage.all.map (·.name)) "invalid workflow state"
  require (isText (task.get "title")) (schemaError "title must be a non-empty string")
  require (isText (task.get "created")) (schemaError "created must be a timestamp string")
  require (isText (task.get "updated")) (schemaError "updated must be a timestamp string")
  require (isAtLeast 0 (task.get "revision"))
    (schemaError "revision must be a non-negative integer")
  require (isAtLeast 0 (task.get "change_epoch"))
    (schemaError "change_epoch must be a non-negative integer")
  require (task.get "precheck").obj?.isSome (schemaError "precheck must be an object")
  return id

section

variable (host : Host)

/-- `validate_tdd_cycle`, with its own failures as failures of the schema. -/
def validateCycle (id : Text) (cycle : Json) : Except Raised Unit := do
  match Assurance.validateTddCycle host cycle with
  | .ok _ =>
      require ((cycle.get "task_id").equal (.str id))
        (schemaError "TDD cycle belongs to another task")
  | .error raised =>
      throw (if raised.kind = .assuranceError then
        schemaError (text "invalid TDD cycle: " ++ raised.message) else raised)

/-- The TDD contract of a task. -/
def validateTdd (id : Text) (tdd : Json) : Except Raised Unit := do
  require tdd.obj?.isSome (schemaError "tdd must be an object")
  let missing := (Fields.ofPairs emptyTdd).filterMap fun field =>
    if (tdd.get? field.1).isNone then some field.1 else none
  require (missing = []) (schemaError (text "incomplete tdd contract: " ++ commas missing))
  let known ← inSet (tdd.get "mode") (Assurance.tddModes.map (·.1))
  require (tdd.get "mode" = .null ∨ known) (schemaError "invalid tdd mode")
  [text "test_design_complete", "baseline_executed", "harness_valid", "baseline_intact"].forM
    fun field => require (tdd.get field = .bool true ∨ tdd.get field = .bool false)
      (schemaError (text "tdd " ++ field ++ text " must be boolean"))
  [text "test_contract_digest", "frozen_test_contract_digest", "oracle_digest",
    "frozen_oracle_digest", "baseline_implementation_digest",
    "observed_implementation_digest"].forM fun field =>
      require (nullOr (tdd.get field) isSha256)
        (schemaError (text "tdd " ++ field ++ text " must be null or a canonical sha256"))
  let outcome ← inSet (tdd.get "baseline_outcome") baselineOutcomes
  require (tdd.get "baseline_outcome" = .null ∨ outcome)
    (schemaError "invalid tdd baseline outcome")
  let outcome ← inSet (tdd.get "required_baseline_outcome") baselineOutcomes
  require (tdd.get "required_baseline_outcome" = .null ∨ outcome)
    (schemaError "invalid required tdd baseline outcome")
  require ((tdd.get "semantic_reason").str?.isSome)
    (schemaError "invalid tdd semantic reason or cycle ledger")
  match (tdd.get "cycles").arr? with
  | none => throw (schemaError "invalid tdd semantic reason or cycle ledger")
  | some cycles =>
      require (nullOr (tdd.get "green_epoch") (isAtLeast 1))
        (schemaError "tdd green_epoch must be null or a positive integer")
      cycles.forM (validateCycle host id)
      let ids := cycles.map (·.get "cycle_id")
      require (← distinct ids) (schemaError "duplicate TDD cycle id")
      require (nullOr (tdd.get "active_cycle_id") (inList · ids))
        (schemaError "active TDD cycle does not exist")

/-- The receipts of a task. -/
def validateReceipts (id : Text) (task : Json) : Except Raised Unit := do
  [text "implementation_digest", "diff_digest", "evidence_set_digest"].forM fun field =>
    require (nullOr (task.get field) isSha256)
      (schemaError (field ++ text " must be null or a canonical sha256"))
  let falsification := task.get "falsification"
  if falsification ≠ .null then
    require (← Assurance.validateFalsificationReceipt host falsification
        ⟨.str id, .null, .null, .null⟩ false)
      (schemaError "invalid falsification receipt")
  let receipt := task.get "review_receipt"
  if receipt ≠ .null then
    require (Review.intact host receipt) (schemaError "invalid review receipt")
    require ((receipt.get "task_id").equal (.str id))
      (schemaError "review receipt belongs to another task")

end

/-- A field that must be a list. -/
def requireList (task : Json) (field : Text) : Except Raised (List Json) :=
  match (task.get field).arr? with
  | some items => .ok items
  | none => .error (schemaError (field ++ text " must be an array"))

/-- `_unique_ids` -/
def uniqueIds (items : List Json) (label : Text) : Except Raised Unit := do
  let ids ← items.mapM fun entry => fetch entry "id"
  require (ids.all fun id => id.str?.any isRecordId)
    (schemaError (label ++ text " id must be canonical and bounded"))
  require (← distinct ids) (schemaError (text "duplicate " ++ label ++ text " id"))

/-- An evidence identifier. -/
def isEvidenceId (value : Json) : Bool := value.str?.any (startsWith "E-")

/-- `WAIVER_AUTHORITY_RE.fullmatch(value)` of a string. -/
def isWaiverAuthority (value : Json) : Bool :=
  value.str?.any fun string => startsWith "policy:" string &&
    isCanonicalName "_.-" (string.drop (text "policy:").length)

/-- A waived gate of the time before the constitution. -/
def validateLocalWaiver (schema gate : Json) : Except Raised Unit :=
  require (¬ (¬ (isText (gate.get "waiver_reason") ∧ isWaiverAuthority (gate.get "waiver_authority")) ∧
      (schema.equal (.int 3) ∨ schema.equal (.int 4)) ∧ gate.get "created_revision" ≠ .null))
    (schemaError "waived gate lacks reason/authority")

/-- An acceptance gate. -/
def validateGate (schema gate : Json) : Except Raised Unit := do
  require (← inSet (gate.get "status") gateStatuses) (schemaError "invalid acceptance gate")
  require (isText (gate.get "description")) (schemaError "invalid acceptance gate")
  let severity := gate.getD "severity" (.str "high")
  require (← inSet severity severities) (schemaError "invalid acceptance gate severity")
  let constitutional := gate.get "gate_severity"
  let known ← inSet constitutional gateSeverities
  require (constitutional = .null ∨ known)
    (schemaError "invalid HARD/REQUIRED/ADVISORY gate severity")
  match (gate.getD "evidence" (.arr [])).arr? with
  | none => throw (schemaError "invalid gate evidence references")
  | some evidence =>
      let single ← distinct evidence
      require (single ∧ evidence.all isEvidenceId)
        (schemaError "invalid gate evidence references")
      let status := gate.get "status"
      require (status.equal (.str "PROVEN") → evidence ≠ [])
        (schemaError "a proven acceptance gate requires evidence")
      require (isAtLeast 0 (gate.getD "created_revision" (.int 0)))
        (schemaError "invalid gate creation revision")
      let waived : Bool := status.equal (.str "WAIVED")
      if waived ∧ constitutional = .null then validateLocalWaiver schema gate
      require (¬ (waived ∧ constitutional ≠ .null ∧
          ¬ (constitutional.equal (.str "REQUIRED") ∧ isEvidenceId (gate.get "waiver_evidence"))))
        (schemaError "REQUIRED gate waiver requires external waiver evidence; HARD and ADVISORY gates are not waivable")
      require (¬ (waived ∧ severity.equal (.str "critical") ∧ constitutional = .null))
        (schemaError "critical acceptance gates cannot be waived by local policy")

/-- A risk. -/
def validateRisk (risk : Json) : Except Raised Unit := do
  require (← inSet (risk.get "severity") severities) (schemaError "invalid risk record")
  require (← inSet (risk.get "status") riskStatuses) (schemaError "invalid risk record")
  require (isText (risk.get "description")) (schemaError "invalid risk record")
  require ((risk.get "status").equal (.str "resolved") → isText (risk.get "resolution"))
    (schemaError "resolved risk lacks resolution")

/-- The decisions, each with those before it. -/
def validateDecisions : (earlier : List Json) → List Json → Except Raised Unit
  | _, [] => .ok ()
  | earlier, decision :: later => do
      require (isText (decision.get "statement") ∧ isText (decision.get "rationale"))
        (schemaError "invalid decision record")
      require (decision.getD "evidence" (.arr [])).arr?.isSome
        (schemaError "decision evidence must be an array")
      let supersedes := decision.get "supersedes"
      hash supersedes
      require (nullOr supersedes (inList · earlier))
        (schemaError "decision supersedes unknown or future decision")
      validateDecisions (decision.get "id" :: earlier) later

/-- The identifier of a handoff. -/
def handoffId (handoff : Json) : Json := handoff.getD "handoff_id" (handoff.get "lease_id")

/-- The handoff of a child. -/
def validateHandoff (handoff : Json) : Except Raised Unit := do
  require (isText (handoffId handoff)) (schemaError "invalid child handoff")
  require (← inSet (handoff.get "outcome") ["accepted", "rejected", "partial", "recovered"])
    (schemaError "invalid child handoff")
  require (isText (handoff.get "summary") ∧ (handoff.getD "evidence" (.arr [])).arr?.isSome)
    (schemaError "child handoff requires summary/evidence")

/-- A fact in the brief of a child. -/
def isFact (fact : Json) : Bool :=
  fact.obj?.isSome && isEvidenceId (fact.get "id") && (fact.get "record_sha256").str?.isSome

section

variable (host : Host)

/-- The active child and its brief. -/
def validateActiveChild (task : Json) : Except Raised Unit := do
  let active := task.get "active_child"
  if active ≠ .null then
    require (active.obj?.isSome ∧
        [text "role", "opened", "lease_id"].all fun key => isText (active.get key))
      (schemaError "invalid active child")
    let brief := active.get "context_brief"
    if brief ≠ .null then
      require (brief.obj?.isSome ∧ (brief.get "schema").equal (.int 1) ∧
          (brief.get "task_id").equal (task.get "id") ∧
          (brief.get "change_epoch").equal (task.get "change_epoch") ∧
          (brief.get "evidence").arr?.isSome)
        (schemaError "invalid active child context brief")
      require (((brief.get "evidence").arr?.getD []).all isFact)
        (schemaError "invalid child context fact")
      require ((host.canonical brief).length ≤ 16384 ∧
          (active.get "context_brief_sha256").equal (.str (host.digest brief)))
        (schemaError "child context brief bound/digest limit failure")

/-- The moves of a task, each from where the last one led. -/
def validateMoves (versioned : Bool) : (previous : Text) → (last : ℤ) → List Json →
    Except Raised Text
  | previous, _, [] => .ok previous
  | previous, last, move :: moves => do
      let from_ ← fetch move "from"
      let targets := ((Stage.ofName? previous).map fun stage => stage.allowed.map (·.name)).getD []
      require (from_.equal (.str previous)) (schemaError "corrupted transition history at entry ")
      require (← inSet (move.get "to") targets)
        (schemaError "corrupted transition history at entry ")
      let revision ← if versioned then
          match (move.get "revision").int? with
          | some revision =>
              require (last < revision)
                (schemaError "transition revisions are not strictly monotonic")
              require (move.get "epoch").int?.isSome (schemaError "transition epoch missing")
              pure revision
          | none => throw (schemaError "transition revisions are not strictly monotonic")
        else pure last
      require (isText (move.get "reason") ∧ (move.get "at").str?.isSome)
        (schemaError "transition reason/timestamp is invalid")
      validateMoves versioned ((move.get "to").str?.getD []) revision moves

/-- `schema >= 3` -/
def isVersioned (schema : Json) : Bool := schema.equal (.int 3) || schema.equal (.int 4)

/-- `_state_digest` -/
def stateDigest (task : Json) : Text := host.digest (task.erase "integrity_sha256")

/-- The lists of a task. -/
def validateLists (task : Json) : Except Raised Unit := do
  let schema := task.get "schema"
  let gates ← requireList task "gates"
  let risks ← requireList task "risks"
  let decisions ← requireList task "decisions"
  let handoffs ← requireList task "child_history"
  let evidence ← requireList task "verification_evidence"
  let _ ← requireList task "transitions"
  uniqueIds gates "gate"
  uniqueIds risks "risk"
  uniqueIds decisions "decision"
  let handoffIds ← handoffs.mapM fun handoff => do
    let lease ← fetch handoff "lease_id"
    fetchD handoff "handoff_id" lease
  require (← distinct handoffIds) (schemaError "duplicate child handoff id")
  require (evidence.all isEvidenceId) (schemaError "invalid verification evidence id")
  require (← distinct evidence) (schemaError "duplicate verification evidence id")
  require (nullOr (task.get "verification_epoch") (isAtLeast 0))
    (schemaError "verification_epoch must be null or non-negative integer")
  [text "final_audit_complete", "material_claim"].forM fun field =>
    require ((task.get? field).all fun value => value = .bool true || value = .bool false)
      (schemaError (field ++ text " must be boolean"))
  gates.forM (validateGate schema)
  risks.forM validateRisk
  validateDecisions [] decisions
  handoffs.forM validateHandoff

/-- The moves of a task lead to its state. -/
def validateHistory (task : Json) : Except Raised Unit := do
  let moves ← requireList task "transitions"
  let reached ← validateMoves (isVersioned (task.get "schema")) "CREATED" (-1) moves
  require ((task.get "state").equal (.str reached))
    (schemaError (if moves = [] then "non-created state has no transition history"
      else "workflow state does not match transition history"))

/-- `validate_task` -/
def validateTask (task : Json) (expectedId : Option Text) : Except Raised Unit := do
  let id ← validateHeader task expectedId
  match task.get? "tdd" with
  | some tdd => validateTdd host id tdd
  | none => pure ()
  validateReceipts host id task
  validateLists task
  validateActiveChild host task
  validateHistory task
  require (isVersioned (task.get "schema") →
      (task.get "integrity_sha256").equal (.str (stateDigest host task)))
    (runtimeError "state integrity digest mismatch")

end

end TaskSchema

end CarbonLab.Aegis
