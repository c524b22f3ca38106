import CarbonLab.Aegis.ProjectContract

/-!
# The gates of a compiled policy

`_classify_paths`, `_tdd_mode` and what `compile_contract` of `policy.py` derives from the
classes of a task: its TDD mode and its gates.  The scope, the budgets, the commands and the
digest of a compiled policy are left out here.
-/

namespace CarbonLab.Aegis

/-- `GATE_SEVERITIES` -/
inductive GateSeverity
  | advisory
  | required
  | hard
  deriving DecidableEq, Repr

/-- How severe a gate is. -/
def GateSeverity.rank : GateSeverity → ℕ
  | .advisory => 0
  | .required => 1
  | .hard => 2

/-- A gate of a compiled policy. -/
structure PolicyGate where
  id : Text
  description : Text
  severity : GateSeverity
  family : Text
  waivable : Bool
  deriving DecidableEq, Repr

/-- `_gate` -/
def policyGate (id description : Text) (severity : GateSeverity) (family : Text) : PolicyGate :=
  ⟨id, description, severity, family, severity ≠ .hard⟩

/-- `_gate` with its defaults. -/
def hardGate (id description : Text) : PolicyGate :=
  policyGate id description .hard (text "constitutional")

/-- `TDD_MODES` of `policy.py` -/
inductive TddMode
  | nonBehavioral
  | characterization
  | red
  deriving DecidableEq, Repr

/-- How strict a mode is. -/
def TddMode.rank : TddMode → ℕ
  | .nonBehavioral => 0
  | .characterization => 1
  | .red => 2

/-- The gate of a mode. -/
def TddMode.gateId : TddMode → Text
  | .nonBehavioral => text "NON_BEHAVIORAL_TEST_FIRST"
  | .characterization => text "CHARACTERIZATION_CURRENT"
  | .red => text "RED_EVIDENCE_CURRENT"

namespace Policy

/-- `CORE_GATES` -/
def coreGates : List PolicyGate :=
  [hardGate (text "GOVERNANCE_INTEGRITY")
      (text "Governing policy and instructions match their frozen digest."),
    hardGate (text "TEST_LAW_INTEGRITY")
      (text "Frozen tests and laws retain their definition digests."),
    hardGate (text "EVIDENCE_HONESTY")
      (text "Claims use current evidence with an honest epistemic status."),
    hardGate (text "PRODUCTION_PATH_TRUTH")
      (text "Production claims exercise production behavior."),
    hardGate (text "WORKSPACE_SAFETY") (text "Writes remain in scope and preserve user work."),
    hardGate (text "SEQUENTIAL_DELEGATION")
      (text "At most one child is active and no nested child exists."),
    hardGate (text "TEST_DESIGN_COMPLETE")
      (text "The executable test/property contract is designed."),
    hardGate (text "TEST_FIRST_CONTRACT_RECORDED")
      (text "Test definition predates behavioral implementation mutation."),
    hardGate (text "BASELINE_EXECUTED")
      (text "The frozen contract ran against the pre-implementation baseline."),
    hardGate (text "TEST_CONTRACT_FROZEN")
      (text "Test, oracle, and gate contracts are content-addressed and frozen."),
    hardGate (text "IMPLEMENTATION_AUTHORIZED")
      (text "Implementation write authority follows the required baseline result."),
    hardGate (text "GREEN_EVIDENCE_CURRENT")
      (text "The frozen contract is GREEN for the current implementation epoch."),
    hardGate (text "PROPERTY_FALSIFICATION_COMPLETE")
      (text "Required counterexample search and negative validation completed."),
    hardGate (text "INDEPENDENT_REVIEW_CURRENT")
      (text "Independent review binds to the current diff and evidence.")]

/-- `CLASS_GATES` -/
def classGates : List (Text × List PolicyGate) :=
  [(text "BUG_FIX", [hardGate (text "ORIGINAL_FAILURE_REPRODUCED")
        (text "The original defect is reproduced before remediation."),
      hardGate (text "REGRESSION_GREEN") (text "The regression is GREEN after remediation.")]),
    (text "FEATURE", [hardGate (text "REQUIREMENT_CONTRACT")
      (text "Positive, negative, and boundary behavior is executable.")]),
    (text "REFACTOR", [hardGate (text "BEHAVIOR_EQUIVALENCE")
      (text "The frozen characterization remains equivalent.")]),
    (text "REIMPLEMENTATION", [hardGate (text "REFERENCE_INTEGRITY")
        (text "The reference digest and read-only status are current."),
      hardGate (text "DIFFERENTIAL_ORACLE")
        (text "Reference and candidate normalized observations agree.")]),
    (text "MIGRATION", [hardGate (text "MIGRATION_RECOVERY")
      (text "Migration is compatible, idempotent, and recovers safely.")]),
    (text "CONCURRENCY", [hardGate (text "CONCURRENCY_MODEL")
      (text "Ordering, cancellation, duplication, failure, and cleanup are modeled.")]),
    (text "PERFORMANCE", [hardGate (text "PERFORMANCE_METHODOLOGY")
      (text "Correctness, baseline, noise, and threshold are reproducible.")]),
    (text "SECURITY", [hardGate (text "SECURITY_ABUSE_CASES")
      (text "Hostile inputs, path boundaries, secrets, and failures close safely.")]),
    (text "DEPENDENCY_CHANGE", [hardGate (text "DEPENDENCY_DELTA")
      (text "Direct/transitive impact and lifecycle behavior are reviewed.")]),
    (text "BUILD_SYSTEM", [hardGate (text "BUILD_PLAN_VALIDATED")
      (text "Build changes render and validate without an unrequested apply.")]),
    (text "CI_CD", [hardGate (text "CI_PLAN_VALIDATED")
      (text "CI/CD changes render and validate without an unrequested apply.")]),
    (text "INFRASTRUCTURE", [hardGate (text "INFRASTRUCTURE_PLAN_VALIDATED")
      (text "Infrastructure changes plan without live apply.")]),
    (text "API_CHANGE", [hardGate (text "API_CONTRACT")
      (text "Public API compatibility and errors are executable.")]),
    (text "FFI_CHANGE", [hardGate (text "FFI_CONTRACT")
      (text "ABI, ownership, lifetime, and errors are executable.")]),
    (text "DATABASE_CHANGE", [hardGate (text "DATABASE_MIGRATION")
      (text "Schema/data preservation and transactional recovery are executable.")])]

/-- `PACKS`: the classes and the gates of each pack. -/
def packs : List (Text × List Text × List Text) :=
  [(text "rust-systems", [text "SECURITY"], [text "MEMORY_SAFETY", text "UNSAFE_BOUNDARY_AUDIT"]),
    (text "rust-concurrency", [text "CONCURRENCY"],
      [text "NO_SLEEP_SYNCHRONIZATION", text "CANCELLATION_SHUTDOWN", text "BACKPRESSURE"]),
    (text "rust-ffi", [text "FFI_CHANGE"], [text "ABI_OWNERSHIP_LIFETIME"]),
    (text "go-service", [text "API_CHANGE"], [text "SERVICE_SHUTDOWN", text "REQUEST_CANCELLATION"]),
    (text "python-control-plane", [], [text "HYPOTHESIS_PROPERTY_SUITE"]),
    (text "distributed-system", [text "CONCURRENCY"],
      [text "IDEMPOTENCY", text "DUPLICATE_REORDER_RETRY", text "DURABILITY_RECOVERY"]),
    (text "reimplementation", [text "REIMPLEMENTATION"],
      [text "REFERENCE_INTEGRITY", text "DIFFERENTIAL_ORACLE", text "DIVERGENCE_REGISTRY"]),
    (text "compatibility-preserving-refactor", [text "REFACTOR"],
      [text "BEHAVIOR_EQUIVALENCE", text "PUBLIC_SURFACE_AUDIT"]),
    (text "performance-critical", [text "PERFORMANCE"],
      [text "PERFORMANCE_METHODOLOGY", text "CORRECTNESS_BEFORE_BENCHMARK"]),
    (text "terraform", [text "INFRASTRUCTURE"], [text "TERRAFORM_VALIDATE_PLAN", text "NO_LIVE_APPLY"]),
    (text "kubernetes", [text "INFRASTRUCTURE"],
      [text "KUBERNETES_RENDER_VALIDATE", text "ROLLOUT_RECOVERY"]),
    (text "database", [text "DATABASE_CHANGE"], [text "DATABASE_MIGRATION", text "DATA_PRESERVATION"]),
    (text "agent-framework", [text "SECURITY"],
      [text "HYPOTHESIS_PROPERTY_SUITE", text "CONTROL_PLANE_ADVERSARIAL_REVIEW"])]

/-- `part in string` -/
def hasPart (part string : Text) : Bool := string.tails.any part.isPrefixOf

/-- The classes of one changed path, in lower case with forward slashes. -/
def classesOfPath (normalized : Text) : List Text :=
  let name := (normalized.splitOn (code '/')).getLastD []
  (if name ∈ [text "requirements.txt", text "poetry.lock", text "cargo.lock", text "go.sum",
      text "package-lock.json", text "pnpm-lock.yaml", text "yarn.lock"] then
    [text "DEPENDENCY_CHANGE"] else []) ++
  (if startsWith (text ".github/") normalized ∨ hasPart (text "/ci/") (code '/' :: normalized) then
    [text "CI_CD"] else []) ++
  (if name ∈ [text "dockerfile", text "makefile"] ∨
      [text ".tf", text ".yaml", text ".yml"].any (·.isSuffixOf name) then
    [text "INFRASTRUCTURE"] else []) ++
  (if (text ".sql").isSuffixOf name then [text "DATABASE_CHANGE"] else []) ++
  (if [text "security", text "auth", text "credential", text "secret"].any
      (hasPart · normalized) then [text "SECURITY"] else []) ++
  (if startsWith (text "tests/") normalized ∨ hasPart (text "/tests/") (code '/' :: normalized) then
    [text "TEST_ONLY"] else []) ++
  (if (text ".md").isSuffixOf name then [text "DOCUMENTATION"] else [])

/-- `_tdd_mode` -/
def tddMode (classes : List Text) : TddMode :=
  let behavioral := classes.filter fun name => name ∉ [text "DOCUMENTATION", text "TEST_ONLY"]
  if behavioral = [] then .nonBehavioral
  else if ∀ name ∈ behavioral, name = text "REFACTOR" then .characterization
  else .red

/-- `gates.setdefault(gate["id"], gate)` -/
def addGate (gates : List PolicyGate) (gate : PolicyGate) : List PolicyGate :=
  if ∃ other ∈ gates, other.id = gate.id then gates else gates ++ [gate]

/-- `gates[gate["id"]] = gate` -/
def setGate (gates : List PolicyGate) (gate : PolicyGate) : List PolicyGate :=
  gates.filter (fun other => other.id ≠ gate.id) ++ [gate]

/-- The gate of the mode of a task. -/
def modeGate (mode : TddMode) : PolicyGate :=
  hardGate mode.gateId
    (text "The task-specific TDD baseline mode has current executable evidence.")

/-- The gates of a pack. -/
def packGates (pack : Text) : List PolicyGate :=
  (((packs.lookup pack).map (·.2)).getD []).map fun id =>
    policyGate id (text "Mandatory " ++ pack ++ text " policy-pack contract.") .hard
      (text "pack:" ++ pack)

/-- The gates of a task with these classes and packs. -/
def gatesOf (classes selectedPacks : List Text) : List PolicyGate :=
  let gates := setGate coreGates (modeGate (tddMode classes))
  let gates := (classes.flatMap fun name => (classGates.lookup name).getD []).foldl addGate gates
  let gates := (selectedPacks.flatMap packGates).foldl addGate gates
  gates.insertionSort fun first second => first.id ≤ second.id

end Policy

/-- The parts of a compiled policy. -/
structure CompiledPolicy where
  classes : List Text
  risk : Text
  tddMode : TddMode
  changedPaths : List Text
  policyPacks : List Text
  gates : List PolicyGate
  references : List Json
  specialistSecurity : Bool

/-- The arguments of `compile_contract` beside the contract. -/
structure PolicyInput where
  declaredClasses : List Text
  priorClasses : List Text
  changedPaths : List Text
  risk : Text

namespace Host

variable (host : Host)

/-- `_classify_paths` -/
def classifyPaths (paths : List Text) : List Text :=
  paths.flatMap fun path => Policy.classesOfPath (host.casefold (forwardSlashes path))

/-- `policy.packs` of a contract. -/
def packsOf (contract : Json) : List Text :=
  (Contract.strings? ((contract.getD "policy" (.obj [])).getD "packs" (.arr []))).getD []

/-- The classes of a task before the default for a task without any; `upper` is
`str.upper()`. -/
def rawClasses (upper : Text → Text) (contract : Json) (input : PolicyInput) : List Text :=
  (input.declaredClasses ++ input.priorClasses).map upper ++
    host.classifyPaths (sortedSet input.changedPaths) ++
    (sortedSet (packsOf contract)).flatMap fun pack => ((Policy.packs.lookup pack).map (·.1)).getD []

/-- `compile_contract` -/
def compilePolicy (upper : Text → Text) (contract : Json) (input : PolicyInput) :
    Except ScopeFault CompiledPolicy := do
  host.validateProjectContract contract
  demand (∀ name ∈ (input.declaredClasses ++ input.priorClasses).map upper,
      name ∈ Contract.taskClasses) (policyError "unknown task classes")
  let raw := host.rawClasses upper contract input
  -- The conservative default for an unclassified mutating task.
  let classes := sortedSet (if raw = [] then [text "FEATURE"] else raw)
  let references ← host.validateReferences (contract.get "references")
    (text "REIMPLEMENTATION" ∈ classes)
  .ok
    { classes, risk := input.risk, tddMode := Policy.tddMode classes
      changedPaths := sortedSet input.changedPaths, policyPacks := sortedSet (packsOf contract)
      gates := Policy.gatesOf classes (sortedSet (packsOf contract)), references
      specialistSecurity := text "SECURITY" ∈ classes }

end Host

end CarbonLab.Aegis
