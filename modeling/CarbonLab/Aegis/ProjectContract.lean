import CarbonLab.Aegis.WriteScope

/-!
# Project contracts

`validate_project_contract`, `_validate_references` and the scope that `compile_contract` of
`policy.py` derives.  The changed paths add task classes, never `REIMPLEMENTATION`, and so
do not matter to the scope; the names inside a message are left out.
-/

namespace CarbonLab.Aegis

/-- `raise PolicyError(message)` -/
def policyError (message : Text) : ScopeFault := .policyError message

namespace Contract

/-- `TASK_CLASSES` -/
def taskClasses : List Text :=
  [text "BUG_FIX", text "FEATURE", text "REFACTOR", text "REIMPLEMENTATION", text "MIGRATION",
    text "PERFORMANCE", text "CONCURRENCY", text "SECURITY", text "DEPENDENCY_CHANGE",
    text "BUILD_SYSTEM", text "CI_CD", text "INFRASTRUCTURE", text "API_CHANGE",
    text "FFI_CHANGE", text "DATABASE_CHANGE", text "DOCUMENTATION", text "TEST_ONLY"]

/-- `WEAKENING_RULES`: the value that weakens the constitution, and the rule it breaks. -/
def weakeningRules : List (Text × Bool × Text) :=
  [(text "independent_review", false, text "AEGIS-I007"),
    (text "strict_evidence", false, text "AEGIS-I009"),
    (text "production_path", false, text "AEGIS-I005"),
    (text "tdd", false, text "AEGIS-I019"),
    (text "test_first", false, text "AEGIS-I019"),
    (text "red_required", false, text "AEGIS-I019"),
    (text "property_testing", false, text "AEGIS-I021"),
    (text "allow_test_after_implementation", true, text "AEGIS-I019"),
    (text "nested_delegation", true, text "AEGIS-I011"),
    (text "parallel_agents", true, text "AEGIS-I011"),
    (text "allow_self_waiver", true, text "AEGIS-I003"),
    (text "allow_test_weakening", true, text "AEGIS-I006"),
    (text "governance_write", true, text "AEGIS-I001"),
    (text "verification_optional", true, text "AEGIS-I008"),
    (text "parent_canonical_state", false, text "AEGIS-I012"),
    (text "max_reasoning", false, text "AEGIS-I013"),
    (text "falsification", false, text "AEGIS-I014")]

/-- The names of `PACKS`. -/
def packNames : List Text :=
  [text "rust-systems", text "rust-concurrency", text "rust-ffi", text "go-service",
    text "python-control-plane", text "distributed-system", text "reimplementation",
    text "compatibility-preserving-refactor", text "performance-critical", text "terraform",
    text "kubernetes", text "database", text "agent-framework"]

/-- The keys of a reference entry. -/
def referenceKeys : List Text :=
  [text "id", text "path", text "revision", text "sha256", text "read_only", text "command",
    text "observation", text "normalization", text "permitted_divergence"]

/-- The strings of an array of strings. -/
def strings? (value : Json) : Option (List Text) := do
  let items ← value.arr?
  items.mapM Json.str?

/-- Does a field of the contract weaken the constitution? -/
def weakens (field : Text × Json) : Bool :=
  match weakeningRules.lookup field.1 with
  | none => false
  | some (value, _) => field.2.equal (.bool value)

/-- The strings of a field of `boundaries`. -/
def boundary (contract : Json) (field : Text) : List Text :=
  (strings? ((contract.getD "boundaries" (.obj [])).getD field (.arr []))).getD []

/-- The test directories that every contract may write to. -/
def allowFloor : List Text :=
  [text "infra/property_tests/**", text "infra/tests/**", text "infra/law_tests/**"]

end Contract

/-- `compiled["scope"]` of `compile_contract`, with the production paths that
`build_precheck` takes from the contract itself. -/
structure ContractScope where
  allow : List Text
  deny : List Text
  generated : List Text
  reference : List Text
  source : List Text

namespace Host

variable (host : Host)

/-- `str(key).replace("-", "_").casefold()` -/
def ruleKey (key : Text) : Text :=
  host.casefold (key.map fun letter => if letter = code '-' then code '_' else letter)

mutual

/-- `_walk` -/
def walk : Json → List (Text × Json)
  | .obj fields => walkFields fields
  | .arr items => walkItems items
  | _ => []

def walkItems : List Json → List (Text × Json)
  | [] => []
  | first :: rest => walk first ++ walkItems rest

def walkFields : List (Text × Json) → List (Text × Json)
  | [] => []
  | (key, child) :: rest => (host.ruleKey key, child) :: walk child ++ walkFields rest

end

/-- `validate_project_contract` -/
def validateProjectContract (contract : Json) : Except ScopeFault Unit := do
  demand (contract.obj?.isSome ∧ (contract.get "schema").equal (.int 1) = true)
    (policyError "project contract schema must be exactly 1")
  let project := contract.get "project"
  demand (project.obj?.isSome ∧
      ((project.get "name").str?.any fun name => strip name ≠ []) = true)
    (policyError "project.name must be a non-empty string")
  demand ((host.walk contract).all (fun field => !Contract.weakens field) = true)
    (policyError "project policy attempts constitutional weakening")
  let policy := contract.getD "policy" (.obj [])
  demand (policy.obj?.isSome) (policyError "policy must be a table/object")
  match Contract.strings? (policy.getD "packs" (.arr [])) with
  | none => .error (policyError "policy.packs must be a string array")
  | some packs =>
      demand (∀ pack ∈ packs, pack ∈ Contract.packNames) (policyError "unknown policy packs")
  let boundaries := contract.getD "boundaries" (.obj [])
  demand (boundaries.obj?.isSome) (policyError "boundaries must be a table/object")
  demand (∀ field ∈ [text "source", text "generated", text "immutable", text "vendor"],
      ((Contract.strings? (boundaries.getD field (.arr []))).any fun values =>
        values.all fun value => strip value ≠ []) = true)
    (policyError "boundaries must be non-empty-string arrays")

/-- `str(value)` -/
def strOf : Json → Text
  | .str value => value
  | value => host.repr value

/-- The checks of one entry of `_validate_references`. -/
def validateReference (item : Json) : Except ScopeFault Unit := do
  demand (item.obj?.isSome) (policyError "reference entry must be an object")
  demand (∀ key ∈ Contract.referenceKeys, (item.get? key).isSome)
    (policyError "reference entry is incomplete")
  demand (isCanonicalDigest (host.strOf (item.get "sha256")) ∧ item.get "read_only" = .bool true)
    (policyError "AEGIS-I017: reference must have a canonical digest and read_only=true")
  demand (((Contract.strings? (item.get "command")).any fun command => command ≠ []) = true)
    (policyError "reference command must be a non-empty argv array")

/-- `_validate_references` -/
def validateReferences (references : Json) (required : Bool) : Except ScopeFault (List Json) := do
  match (if references = .null then .arr [] else references).arr? with
  | none => .error (policyError "references must be an array")
  | some items =>
      items.forM host.validateReference
      demand (required = true → items ≠ [])
        (policyError "AEGIS-I017: reimplementation requires a complete read-only reference contract")
      .ok items

/-- `compile_contract` of a contract and the task classes in upper case, as far as the scope
goes.  A reference path that is no string is refused here and not when the scope is compiled. -/
def compileContract (contract : Json) (classes : List Text) :
    Except ScopeFault ContractScope := do
  host.validateProjectContract contract
  demand (∀ name ∈ classes, name ∈ Contract.taskClasses) (policyError "unknown task classes")
  let policy := contract.getD "policy" (.obj [])
  let packs := (Contract.strings? (policy.getD "packs" (.arr []))).getD []
  let references ← host.validateReferences (contract.get "references")
    (text "REIMPLEMENTATION" ∈ classes ∨ text "reimplementation" ∈ packs)
  match references.mapM fun item => (item.get "path").str? with
  | none => .error (.scopeError "scope path must be a non-empty string")
  | some reference =>
      .ok
        { allow := sortedSet (Contract.boundary contract "source" ++ Contract.allowFloor)
          deny := sortedSet
            (Contract.boundary contract "immutable" ++ [text ".agents/**", text "**/AGENTS.md"])
          generated := sortedSet (Contract.boundary contract "generated")
          reference
          source := Contract.boundary contract "source" }

end Host

end CarbonLab.Aegis
