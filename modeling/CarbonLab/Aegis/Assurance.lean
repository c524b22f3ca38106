import CarbonLab.Aegis.Dynamic
import CarbonLab.Aegis.Seal

/-!
# TDD cycles and falsification receipts

`assurance.py`: a test-driven cycle is a dictionary with its own digest and a ledger of
events, and a falsification receipt is one that is bound to a cycle.
-/

namespace CarbonLab.Aegis

/-- A dictionary with the digest of its other fields under a key. -/
def reseal (host : Host) (key : Text) (value : Json) : Json :=
  value.set key (.str (host.digest (value.erase key)))

namespace Assurance

/-- `TDD_MODES`: the outcome that a mode asks of its baseline, and its status then. -/
def tddModes : List (Text × Text × Text) :=
  [("RED_REQUIRED", "RED", "RED_OBSERVED"),
    ("CHARACTERIZATION_REQUIRED", "CHARACTERIZED", "CHARACTERIZATION_OBSERVED"),
    ("NON_BEHAVIORAL_TEST_FIRST", "TEST_FIRST", "TEST_FIRST_OBSERVED")]

/-- `TDD_STATUSES` -/
def tddStatuses : List Text :=
  ["TEST_DESIGNED", "BASELINE_EXECUTED", "RED_OBSERVED", "CHARACTERIZATION_OBSERVED",
    "TEST_FIRST_OBSERVED", "TEST_CONTRACT_FROZEN", "GREEN_PROVEN", "TDD_CYCLE_ABORTED",
    "TDD_CYCLE_COMPLETE"]

/-- `_BASELINE_STATUSES` -/
def baselineStatuses : List Text :=
  ["RED_OBSERVED", "CHARACTERIZATION_OBSERVED", "TEST_FIRST_OBSERVED"]

/-- `FALSIFICATION_OUTCOMES` -/
def falsificationOutcomes : List Text := ["NO_COUNTEREXAMPLE", "COUNTEREXAMPLE"]

/-- `isinstance(value, str) and _ID_RE.fullmatch(value)` -/
def isId (value : Json) : Bool := value.str?.any isRecordId

/-- `_require_digest` -/
def requireDigest (value : Json) (label : Text) : Except Raised Unit :=
  require (isSha256 value) (assuranceError (label ++ text " must be a canonical sha256"))

/-- `_require_command` -/
def requireCommand (command : Json) : Except Raised (List Json) := do
  let parts := command.arr?.getD []
  require (parts ≠ [] ∧ parts.all fun part => part.str?.any (· ≠ []))
    (assuranceError "TDD evidence command must be a non-empty argv array")
  return parts

/-- An event of a cycle. -/
def validateEvent (event : Json) : Except Raised Bool :=
  match event with
  | .obj _ => inSet (event.get "status") tddStatuses
  | _ => .ok false

section

variable (host : Host)

/-- `validate_tdd_cycle` -/
def validateTddCycle (cycle : Json) : Except Raised Unit := do
  require (cycle.obj?.isSome ∧ (cycle.get "schema").equal (.int 1))
    (assuranceError "invalid TDD cycle schema")
  require (isId (cycle.get "task_id")) (assuranceError "invalid TDD cycle task_id")
  require (isId (cycle.get "cycle_id")) (assuranceError "invalid TDD cycle cycle_id")
  require (← inSet (cycle.get "mode") (tddModes.map (·.1)))
    (assuranceError "invalid TDD cycle mode")
  require (← inSet (cycle.get "status") tddStatuses) (assuranceError "invalid TDD cycle status")
  requireDigest (cycle.get "test_contract_digest") "test_contract_digest"
  requireDigest (cycle.get "oracle_digest") "oracle_digest"
  match (cycle.get "events").arr? with
  | none | some [] => throw (assuranceError "TDD cycle requires an append-only event ledger")
  | some (first :: events) =>
      require ((← fetch first "status").equal (.str "TEST_DESIGNED"))
        (assuranceError "TDD cycle does not begin with TEST_DESIGNED")
      require (← every validateEvent (first :: events)) (assuranceError "invalid TDD cycle event")
      require ((cycle.get "cycle_sha256").equal (.str (host.digest (cycle.erase "cycle_sha256"))))
        (assuranceError "TDD cycle integrity digest mismatch")

/-! ## The steps of a cycle -/

/-- `_event` -/
def event (status time : Text) (details : List (Text × Json)) : Json :=
  .obj (Fields.ofPairs (("status", .str status) :: ("at", .str time) :: details))

/-- `_seal` -/
def sealCycle (cycle : Json) : Json := reseal host "cycle_sha256" cycle

/-- A cycle with more events. -/
def addEvents (cycle : Json) (events : List Json) : Json :=
  cycle.set "events" (.arr ((cycle.get "events").arr?.getD [] ++ events))

/-- The arguments of `new_tdd_cycle`. -/
structure NewCycle where
  taskId : Json
  cycleId : Json
  mode : Text
  designedAtRevision : Json
  testContractDigest : Json
  oracleDigest : Json
  remediation : Bool
  discoveredEpoch : Json

/-- `new_tdd_cycle`, at a time. -/
def newTddCycle (time : Text) (new : NewCycle) : Except Raised Json := do
  require (isId new.taskId) (assuranceError "invalid task id")
  require (isId new.cycleId) (assuranceError "invalid cycle id")
  require (new.mode ∈ tddModes.map (·.1)) (assuranceError "invalid TDD mode")
  require (isAtLeast 0 new.designedAtRevision)
    (assuranceError "designed_at_revision must be non-negative")
  require (new.remediation → isAtLeast 0 new.discoveredEpoch)
    (assuranceError "remediation cycles require the broken candidate epoch")
  require (¬ new.remediation → new.discoveredEpoch = .null)
    (assuranceError "initial TDD cycle cannot claim a remediation discovery epoch")
  requireDigest new.testContractDigest "test_contract_digest"
  requireDigest new.oracleDigest "oracle_digest"
  return sealCycle host (.obj (Fields.ofPairs [("schema", .int 1), ("task_id", new.taskId),
    ("cycle_id", new.cycleId), ("mode", .str new.mode), ("status", .str "TEST_DESIGNED"),
    ("remediation", .bool new.remediation), ("discovered_epoch", new.discoveredEpoch),
    ("designed_at_revision", new.designedAtRevision),
    ("test_contract_digest", new.testContractDigest), ("oracle_digest", new.oracleDigest),
    ("frozen_test_contract_digest", .null), ("frozen_oracle_digest", .null),
    ("baseline_implementation_digest", .null),
    ("baseline_epoch", if new.remediation then new.discoveredEpoch else .int 0),
    ("green_epoch", .null),
    ("events", .arr [event "TEST_DESIGNED" time [("task_revision", new.designedAtRevision),
      ("test_contract_digest", new.testContractDigest), ("oracle_digest", new.oracleDigest),
      ("remediation", .bool new.remediation)]])]))

/-- The arguments of `record_baseline`. -/
structure Baseline where
  outcome : Text
  observedImplementationDigest : Json
  command : Json
  environmentDigest : Json
  outputDigest : Json
  semanticReason : Text
  harnessValid : Bool
  baselineIntact : Bool

/-- The fields that the events of a baseline share. -/
def Baseline.common (baseline : Baseline) (cycle : Json) (argv : List Json) : List (Text × Json) :=
  [("baseline_implementation_digest", baseline.observedImplementationDigest),
    ("test_contract_digest", cycle.get "test_contract_digest"),
    ("oracle_digest", cycle.get "oracle_digest"), ("command", .arr argv),
    ("environment_digest", baseline.environmentDigest),
    ("output_digest", baseline.outputDigest),
    ("semantic_reason", .str (strip baseline.semanticReason)), ("harness_valid", .bool true),
    ("baseline_intact", .bool true)]

/-- What `TDD_MODES` says of a cycle's mode. -/
def modeOf (cycle : Json) : Except Raised (Text × Text) :=
  match (cycle.get "mode").str?.bind (tddModes.lookup ·) with
  | some found => .ok found
  | none => .error ⟨.keyError, "mode"⟩

/-- `record_baseline`, with the times of its three events. -/
def recordBaseline (times : Text × Text × Text) (cycle : Json) (baseline : Baseline) :
    Except Raised Json := do
  validateTddCycle host cycle
  require ((cycle.get "status").equal (.str "TEST_DESIGNED"))
    (assuranceError "baseline can be recorded exactly once after TEST_DESIGNED")
  let mode ← modeOf cycle
  require (baseline.outcome = mode.1)
    (assuranceError ((cycle.get "mode").str?.getD [] ++ text " requires baseline outcome " ++ mode.1))
  require baseline.harnessValid
    (assuranceError "invalid or deliberately broken harness cannot establish a baseline")
  require baseline.baselineIntact
    (assuranceError "damaged production cannot establish a legitimate baseline")
  require (strip baseline.semanticReason ≠ [])
    (assuranceError "baseline requires a semantic explanation")
  requireDigest baseline.observedImplementationDigest "baseline implementation digest"
  requireDigest baseline.environmentDigest "environment digest"
  requireDigest baseline.outputDigest "output digest"
  let argv ← requireCommand baseline.command
  let frozen := ((((cycle.set "status" (.str mode.2)).set "baseline_implementation_digest"
    baseline.observedImplementationDigest).set "frozen_test_contract_digest"
    (cycle.get "test_contract_digest")).set "frozen_oracle_digest" (cycle.get "oracle_digest"))
  return sealCycle host (addEvents frozen [
    event "BASELINE_EXECUTED" times.1
      (("outcome", .str baseline.outcome) :: baseline.common cycle argv),
    event mode.2 times.2.1 (baseline.common cycle argv),
    event "TEST_CONTRACT_FROZEN" times.2.2
      [("test_contract_digest", cycle.get "test_contract_digest"),
        ("oracle_digest", cycle.get "oracle_digest")]])

/-- The arguments of `record_green`. -/
structure Green where
  currentEpoch : Json
  currentTestContractDigest : Json
  currentOracleDigest : Json
  currentImplementationDigest : Json
  diffDigest : Json
  command : Json
  environmentDigest : Json
  outputDigest : Json
  passed : Bool

/-- `record_green`, at a time. -/
def recordGreen (time : Text) (cycle : Json) (green : Green) : Except Raised Json := do
  validateTddCycle host cycle
  require (← inSet (cycle.get "status") baselineStatuses)
    (assuranceError "GREEN requires a current RED/characterization/test-first baseline")
  require (green.currentTestContractDigest.equal (cycle.get "frozen_test_contract_digest"))
    (assuranceError "GREEN test contract differs from the frozen baseline contract")
  require (green.currentOracleDigest.equal (cycle.get "frozen_oracle_digest"))
    (assuranceError "GREEN oracle differs from the frozen baseline oracle")
  match green.currentEpoch.plainInt? with
  | none => throw (assuranceError "GREEN is not bound to a post-baseline implementation epoch")
  | some epoch =>
      let baseline ← host.int (← item cycle "baseline_epoch")
      require (baseline < epoch)
        (assuranceError "GREEN is not bound to a post-baseline implementation epoch")
      require green.passed
        (assuranceError "a failing or unavailable command cannot establish GREEN")
      requireDigest green.currentImplementationDigest "current implementation digest"
      requireDigest green.diffDigest "diff digest"
      requireDigest green.environmentDigest "environment digest"
      requireDigest green.outputDigest "output digest"
      let argv ← requireCommand green.command
      let proven := (((cycle.set "status" (.str "GREEN_PROVEN")).set "green_epoch"
        (.int epoch)).set "green_implementation_digest" green.currentImplementationDigest).set
        "green_diff_digest" green.diffDigest
      return sealCycle host (addEvents proven [event "GREEN_PROVEN" time
        [("epoch", .int epoch), ("implementation_digest", green.currentImplementationDigest),
          ("diff_digest", green.diffDigest),
          ("test_contract_digest", green.currentTestContractDigest),
          ("oracle_digest", green.currentOracleDigest), ("command", .arr argv),
          ("environment_digest", green.environmentDigest),
          ("output_digest", green.outputDigest)]])

/-- `abort_tdd_cycle`, at a time. -/
def abortTddCycle (time : Text) (cycle : Json) (reason : Text) : Except Raised Json := do
  validateTddCycle host cycle
  require (¬ (← inSet (cycle.get "status") ["TDD_CYCLE_ABORTED", "TDD_CYCLE_COMPLETE"]))
    (assuranceError "terminal TDD cycle cannot be aborted again")
  require (strip reason ≠ []) (assuranceError "TDD cycle abort requires a reason")
  return sealCycle host (addEvents (cycle.set "status" (.str "TDD_CYCLE_ABORTED"))
    [event "TDD_CYCLE_ABORTED" time [("reason", .str (strip reason))]])

/-- `complete_tdd_cycle`, at a time. -/
def completeTddCycle (time : Text) (cycle : Json) : Except Raised Json := do
  validateTddCycle host cycle
  require ((cycle.get "status").equal (.str "GREEN_PROVEN"))
    (assuranceError "TDD cycle can complete only after GREEN_PROVEN")
  let epoch ← item cycle "green_epoch"
  return sealCycle host (addEvents (cycle.set "status" (.str "TDD_CYCLE_COMPLETE"))
    [event "TDD_CYCLE_COMPLETE" time [("epoch", epoch)]])

/-! ## Falsification -/

/-- A list of strings that are not blank. -/
def areTexts (value : Json) : Bool := value.arr?.any (·.all isText)

/-- What a falsification receipt is compared with; nothing where a field is `None`. -/
structure Falsified where
  taskId : Json
  tddCycleDigest : Json
  epoch : Json
  diffDigest : Json

/-- `value is None or receipt.get(field) == value` -/
def bound (receipt : Json) (field : Text) (value : Json) : Bool :=
  value = .null || (receipt.get field).equal value

/-- A receipt whose own fields are in order. -/
def wellFormedFalsification (receipt : Json) : Bool :=
  receipt.obj?.isSome && (receipt.get "schema").equal (.int 1) &&
    (receipt.get "receipt_sha256").equal (.str (host.digest (receipt.erase "receipt_sha256"))) &&
    isId (receipt.get "task_id") && isAtLeast 1 (receipt.get "epoch") &&
    isSha256 (receipt.get "tdd_cycle_digest") && isSha256 (receipt.get "diff_digest") &&
    [text "methods", "attempts", "boundary_cases"].all (fun field =>
      areTexts (receipt.get field) && (receipt.get field).truthy) &&
    areTexts (receipt.get "counterexamples")

/-- `validate_falsification_receipt` -/
def validateFalsificationReceipt (receipt : Json) (expected : Falsified) (requireClean : Bool) :
    Except Raised Bool := do
  if wellFormedFalsification host receipt then
    let outcome := receipt.get "outcome"
    if ← inSet outcome falsificationOutcomes then
      let clean : Bool := outcome.equal (.str "NO_COUNTEREXAMPLE")
      return clean == !(receipt.get "counterexamples").truthy && (!requireClean || clean) &&
        bound receipt "task_id" expected.taskId &&
        bound receipt "tdd_cycle_digest" expected.tddCycleDigest &&
        bound receipt "epoch" expected.epoch && bound receipt "diff_digest" expected.diffDigest
    else return false
  else return false

end

end Assurance

end CarbonLab.Aegis
