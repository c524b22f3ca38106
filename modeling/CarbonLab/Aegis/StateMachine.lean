import CarbonLab.Aegis.Review

/-!
# The workflow of a task

`state_machine.py`: the states, the moves between them, and what a move asks of the task.
-/

namespace CarbonLab.Aegis

/-- `STATES` -/
inductive Stage
  | created
  | discover
  | precheck
  | triage
  | explore
  | research
  | architect
  | plan
  | testDesign
  | baseline
  | implement
  | diagnose
  | green
  | verify
  | falsify
  /-- Compatibility state for pre-constitutional task records. -/
  | review
  | adversarialReview
  | remediate
  | finalAudit
  | finalize
  | blocked
  | failed
  | cancelled
  | abandoned
  deriving DecidableEq, Repr

namespace Stage

/-- The stages, in the order of the source. -/
def all : List Stage :=
  [created, discover, precheck, triage, explore, research, architect, plan, testDesign, baseline,
    implement, diagnose, green, verify, falsify, review, adversarialReview, remediate, finalAudit,
    finalize, blocked, failed, cancelled, abandoned]

/-- How a stage is written. -/
def name : Stage → Text
  | created => "CREATED"
  | discover => "DISCOVER"
  | precheck => "PRECHECK"
  | triage => "TRIAGE"
  | explore => "EXPLORE"
  | research => "RESEARCH"
  | architect => "ARCHITECT"
  | plan => "PLAN"
  | testDesign => "TEST_DESIGN"
  | baseline => "BASELINE"
  | implement => "IMPLEMENT"
  | diagnose => "DIAGNOSE"
  | green => "GREEN"
  | verify => "VERIFY"
  | falsify => "FALSIFY"
  | review => "REVIEW"
  | adversarialReview => "ADVERSARIAL_REVIEW"
  | remediate => "REMEDIATE"
  | finalAudit => "FINAL_AUDIT"
  | finalize => "FINALIZE"
  | blocked => "BLOCKED"
  | failed => "FAILED"
  | cancelled => "CANCELLED"
  | abandoned => "ABANDONED"

/-- The stage that a name stands for. -/
def ofName? (name : Text) : Option Stage := all.find? (·.name = name)

/-- `_ESCAPES` -/
def escapes : List Stage := [blocked, cancelled, abandoned, failed]

/-- `ALLOWED` -/
def allowed : Stage → List Stage
  | created => discover :: escapes
  | discover => precheck :: escapes
  | precheck => triage :: escapes
  | triage => [explore, research, architect, plan] ++ escapes
  | explore => [triage, research, architect, plan] ++ escapes
  | research => [triage, explore, architect, plan] ++ escapes
  | architect => [plan, triage] ++ escapes
  | plan => [testDesign, implement, verify] ++ escapes
  | testDesign => baseline :: escapes
  | baseline => [implement, remediate, testDesign] ++ escapes
  | implement => [green, diagnose, testDesign] ++ escapes
  | diagnose => [testDesign, review, adversarialReview] ++ escapes
  | green => [verify, falsify, adversarialReview, testDesign] ++ escapes
  | verify => [falsify, adversarialReview, testDesign, finalAudit] ++ escapes
  | falsify => [verify, adversarialReview, testDesign] ++ escapes
  | review => [testDesign, remediate, verify, finalAudit] ++ escapes
  | adversarialReview => [testDesign, verify, falsify, finalAudit] ++ escapes
  | remediate => [green, diagnose, testDesign] ++ escapes
  | finalAudit => [testDesign, verify, finalize] ++ escapes
  | blocked => all.filter fun stage => stage ≠ created ∧ stage ≠ finalize
  | failed => []
  | finalize => []
  | cancelled => []
  | abandoned => []

/-- `TERMINAL_STATES` -/
def terminal : List Text := ["FAILED", "FINALIZE", "CANCELLED", "ABANDONED"]

theorem mem_all (stage : Stage) : stage ∈ all := by
  cases stage <;> decide

theorem name_inj {first second : Stage} (same : first.name = second.name) : first = second := by
  cases first <;> cases second <;> first | rfl | (simp [name] at same)

@[simp] theorem ofName?_name (stage : Stage) : ofName? stage.name = some stage := by
  cases stage <;> decide

theorem name_of_ofName? {name : Text} {stage : Stage} (found : ofName? name = some stage) :
    stage.name = name := by
  simpa using List.find?_some found

end Stage

/-! ## What a move asks for -/

namespace StateMachine

/-- `PRECHECK_KEYS`, sorted. -/
def precheckKeys : List Text :=
  ["budgets", "command_matrix", "compiled_policy", "constitution", "governance_snapshot",
    "instruction_provenance", "mandatory_gates", "repository_discovery", "review_requirements",
    "tdd_plan", "test_law_baseline", "workspace_snapshot", "write_scope"]

/-- `_artifact_digest` -/
def artifactDigest (value : Json) : Json :=
  match value with
  | .obj _ =>
      let digest := value.getD "digest" (value.get "sha256")
      if isSha256 digest then digest else .null
  | _ => .null

/-- `_current_tdd_cycle` -/
def currentTddCycle (task : Json) : Option Json :=
  let tdd := task.get "tdd"
  match (tdd.get "active_cycle_id").str?, (tdd.get "cycles").arr? with
  | some active, some cycles =>
      cycles.find? fun cycle => cycle.obj?.isSome && (cycle.get "cycle_id").equal (.str active)
  | _, _ => none

section

variable (host : Host)

/-- `_validate_current_green` -/
def validateCurrentGreen (task : Json) : Except Raised Json := do
  match currentTddCycle task with
  | none => throw (transitionError "current TDD cycle has not established GREEN")
  | some cycle =>
      require (← inSet (cycle.get "status") ["GREEN_PROVEN", "TDD_CYCLE_COMPLETE"])
        (transitionError "current TDD cycle has not established GREEN")
      let epoch ← host.int (task.getD "change_epoch" (.int 0))
      let green ← fetch (task.getD "tdd" (.obj [])) "green_epoch"
      require ((cycle.get "green_epoch").equal (.int epoch) ∧ green.equal (.int epoch))
        (transitionError "GREEN evidence is stale for the current implementation epoch")
      require ((cycle.get "test_contract_digest").equal (cycle.get "frozen_test_contract_digest"))
        (transitionError "GREEN test contract no longer matches its frozen RED contract")
      require ((cycle.get "oracle_digest").equal (cycle.get "frozen_oracle_digest"))
        (transitionError "GREEN oracle no longer matches its frozen RED oracle")
      require ((cycle.get "green_implementation_digest").equal (task.get "implementation_digest") ∧
          (cycle.get "green_diff_digest").equal (task.get "diff_digest"))
        (transitionError "GREEN evidence is not bound to the current implementation and diff")
      return cycle

/-- What a falsification of a task is compared with. -/
def falsified (task cycle : Json) : Assurance.Falsified where
  taskId := task.get "id"
  tddCycleDigest := cycle.get "cycle_sha256"
  epoch := task.get "change_epoch"
  diffDigest := task.get "diff_digest"

/-- `_validate_current_falsification` -/
def validateCurrentFalsification (task cycle : Json) : Except Raised Unit := do
  require (← Assurance.validateFalsificationReceipt host (task.get "falsification")
      (falsified task cycle) true)
    (transitionError "current candidate lacks clean, current falsification evidence")

/-- What a review of a task is compared with. -/
def reviewed (task cycle : Json) : Except Raised Review.Reviewed := do
  let precheck := task.getD "precheck" (.obj [])
  return {
    epoch := task.get "change_epoch"
    diffDigest := task.get "diff_digest"
    requirementsDigest := artifactDigest (← fetch precheck "compiled_policy")
    evidenceSetDigest := task.get "evidence_set_digest"
    tddCycleDigest := cycle.get "cycle_sha256"
    testLawBaselineDigest := artifactDigest (← fetch precheck "test_law_baseline") }

/-- A handoff that accepts what a receipt says. -/
def matchesHandoff (receipt handoff : Json) : Except Raised Bool := do
  let lease ← fetchD handoff "lease_id" (handoff.get "handoff_id")
  if lease.equal (receipt.get "reviewer_lease") &&
      (handoff.get "role").equal (receipt.get "reviewer_role") then
    inSet (handoff.get "outcome") ["accepted", "partial"]
  else return false

/-- `_validate_current_review` -/
def validateCurrentReview (task cycle : Json) : Except Raised Unit := do
  let receipt := task.get "review_receipt"
  require (receipt.obj?.isSome ∧ (receipt.get "task_id").equal (task.get "id"))
    (transitionError "current candidate lacks an independent review receipt")
  let handed ← some_ (matchesHandoff receipt) (← iterate (task.getD "child_history" (.arr [])))
  let valid ← if handed then do
      Review.validateReviewReceipt host receipt (← reviewed task cycle)
    else pure false
  require valid (transitionError "independent review is missing, rejected, or stale")

/-- `_validate_precheck` -/
def validatePrecheck (task : Json) : Except Raised Unit := do
  let artifacts := task.get "precheck"
  require artifacts.obj?.isSome
    (transitionError "precheck must contain content-addressed artifacts")
  let missing := precheckKeys.filter fun key => artifactDigest (artifacts.get key) = .null
  require (missing = [])
    (transitionError (text "precheck artifacts missing or unbound: " ++ commas missing))

/-- A digest that is canonical and equal to the one it was frozen at. -/
def frozenAt (current frozen : Json) : Bool := isSha256 current && current.equal frozen

/-- `_validate_tdd_authority` -/
def validateTddAuthority (task : Json) : Except Raised Unit := do
  let tdd := task.get "tdd"
  require tdd.obj?.isSome (transitionError "implementation requires a compiled TDD contract")
  hash (tdd.get "mode")
  match (tdd.get "mode").str?.bind (Assurance.tddModes.lookup ·) with
  | none => throw (transitionError "implementation requires a constitutional TDD mode")
  | some (expected, _) =>
      require ((tdd.get "required_baseline_outcome").equal (.str expected))
        (transitionError "compiled TDD baseline outcome conflicts with its mode")
      require (tdd.get "test_design_complete" = .bool true)
        (transitionError "implementation requires completed TEST_DESIGN")
      require (tdd.get "baseline_executed" = .bool true)
        (transitionError "implementation requires an executed pre-implementation baseline")
      require ((tdd.get "baseline_outcome").equal (.str expected))
        (transitionError ((tdd.get "mode").str?.getD [] ++ text " requires baseline outcome " ++
          expected))
      require (frozenAt (tdd.get "test_contract_digest") (tdd.get "frozen_test_contract_digest"))
        (transitionError "test contract is not frozen at its current digest")
      require (frozenAt (tdd.get "oracle_digest") (tdd.get "frozen_oracle_digest"))
        (transitionError "oracle is not frozen at its current digest")
      require (frozenAt (tdd.get "baseline_implementation_digest")
          (tdd.get "observed_implementation_digest"))
        (transitionError "baseline evidence is not bound to the observed pre-implementation source")
      require (tdd.get "harness_valid" = .bool true)
        (transitionError
          "invalid or deliberately damaged test harness cannot establish baseline authority")
      require (tdd.get "baseline_intact" = .bool true)
        (transitionError
          "damaged or reconstructed production baseline cannot authorize implementation")
      require (isText (tdd.get "semantic_reason"))
        (transitionError "baseline lacks a semantic explanation of the observed behavior")

/-- The items of a list field of a task. -/
def itemsOf (task : Json) (field : Text) : Except Raised (List Json) :=
  iterate (task.getD field (.arr []))

/-- What `IMPLEMENT` and `REMEDIATE` ask for. -/
def validateImplementation (task : Json) (current : Text) : Except Raised Unit := do
  let history ← (← itemsOf task "transitions").mapM fun move => fetch move "to"
  let planned := inList (.str "PLAN") history
  if (task.get "mode").equal (.str "write") then
    require (current ≠ text "TRIAGE")
      (transitionError "mutating task cannot jump directly from TRIAGE to implementation")
    require (planned ∨ current ∈ [text "PLAN", "BASELINE"])
      (transitionError "mutating task requires PLAN before implementation")
    validateTddAuthority task
  else
    let risky ← inSet (task.get "risk") ["high", "critical"]
    require (¬ (risky ∧ ¬ planned ∧ current ≠ text "PLAN"))
      (transitionError ((task.get "risk").str?.getD [] ++
        text " risk task requires PLAN before implementation"))

/-- A gate that is settled. -/
def settledGate (gate : Json) : Except Raised Bool := do
  inSet (← fetch gate "status") ["PROVEN", "WAIVED"]

/-- A risk that blocks. -/
def blockingRisk (risk : Json) : Except Raised Bool := do
  if ← inSet (← fetch risk "severity") ["high", "critical"] then
    return !(risk.get "status").equal (.str "resolved")
  else return false

/-- A mutating task has gates, and one of them is proven. -/
def validateProvenGate (task : Json) (none_ unproven : Text) : Except Raised Unit := do
  require (task.get "gates").truthy (transitionError none_)
  let gates ← itemsOf task "gates"
  let proven ← some_ (fun gate => do return (← fetch gate "status").equal (.str "PROVEN")) gates
  require proven (transitionError unproven)

/-- The candidate of a mutating task is green, attacked and reviewed. -/
def validateCandidate (task : Json) : Except Raised Unit := do
  let cycle ← validateCurrentGreen host task
  validateCurrentFalsification host task cycle
  validateCurrentReview host task cycle

/-- No gate and no risk is left open. -/
def validateSettled (task : Json) (where_ : Text) : Except Raised Unit := do
  let gates ← itemsOf task "gates"
  require (← every settledGate gates)
    (transitionError (text "unresolved acceptance gates" ++ where_ ++ text ": "))
  let risks ← itemsOf task "risks"
  require (¬ (← some_ blockingRisk risks))
    (transitionError (text "unresolved blocking risks" ++ where_ ++ text ": "))

/-- The verification is there and of the current epoch. -/
def validateVerified (task : Json) (where_ : Text) : Except Raised Unit := do
  require (task.get "verification_evidence").truthy
    (transitionError (text "task requires direct verification evidence" ++ where_))
  let epoch ← host.int (task.getD "change_epoch" (.int 0))
  require ((task.get "verification_epoch").equal (.int epoch))
    (transitionError "verification evidence is stale for the current implementation epoch")

/-- A review among the moves of the current epoch. -/
def reviewMove (epoch : ℤ) (move : Json) : Except Raised Bool := do
  if ← inSet (← fetch move "to") ["REVIEW", "ADVERSARIAL_REVIEW"] then
    return (move.get "epoch").equal (.int epoch)
  else return false

/-- `str(value)` -/
def stringOf (value : Json) : Text := value.str?.getD (host.repr value)

/-- A role of an adversarial or a security reviewer. -/
def specialistRole (role : Json) : Bool :=
  let folded := host.casefold (stringOf host role)
  [text "adversarial", "security"].any fun marker => folded.tails.any marker.isPrefixOf

/-- A handoff from an adversarial or a security reviewer. -/
def specialistHandoff (handoff : Json) : Except Raised Bool := do
  if ← inSet (← fetch handoff "outcome") ["accepted", "partial"] then
    return specialistRole host (handoff.getD "role" (.str []))
  else return false

/-- What `FINAL_AUDIT` asks for. -/
def validateFinalAudit (task : Json) : Except Raised Unit := do
  let write := (task.get "mode").equal (.str "write")
  require (¬ (task.get "active_child").truthy)
    (transitionError "cannot enter FINAL_AUDIT with an active child")
  validateVerified host task " before FINAL_AUDIT"
  if write then
    validateProvenGate task "mutating task requires at least one acceptance gate before FINAL_AUDIT"
      "mutating task requires at least one proven, non-waived acceptance gate"
    validateCandidate host task
  validateSettled task " before FINAL_AUDIT"
  let epoch ← host.int (task.getD "change_epoch" (.int 0))
  let current ← some_ (reviewMove epoch) (← itemsOf task "transitions")
  require (write → current)
    (transitionError
      "mutating task requires current independent ADVERSARIAL_REVIEW before FINAL_AUDIT")
  if (task.get "risk").equal (.str "critical") then
    require (← some_ (specialistHandoff host) (← itemsOf task "child_history"))
      (transitionError
        "critical risk task requires an accepted adversarial or security child review")

/-- What `FINALIZE` asks for. -/
def validateFinalize (task : Json) : Except Raised Unit := do
  require (¬ (task.get "active_child").truthy)
    (transitionError "cannot finalize with active child lease")
  if (task.get "mode").equal (.str "write") then
    validateProvenGate task "mutating task requires at least one acceptance gate"
      "mutating task requires at least one proven, non-waived acceptance gate"
    validateCandidate host task
  validateSettled task []
  validateVerified host task []
  require (task.get "final_audit_complete").truthy (transitionError "final audit not recorded")

/-- `validate_transition`, to a target in upper case. -/
def validateTransition (task : Json) (target reason : Text) : Except Raised Unit := do
  let current ← item task "state"
  require (strip reason ≠ []) (transitionError "transition reason must not be empty")
  match Stage.ofName? target with
  | none => throw (transitionError (text "unknown state: " ++ target))
  | some goal =>
      if current.equal (.str target) && goal = .finalize then return
      match current.str?.bind Stage.ofName? with
      | none => throw ⟨.keyError, "state"⟩
      | some from_ =>
          require (goal ∈ from_.allowed)
            (transitionError (text "invalid transition " ++ from_.name ++ text " -> " ++ target))
          if from_ = .blocked ∧ goal ≠ .failed then
            require ((task.get "previous_state").equal (.str target))
              (transitionError (text "BLOCKED task may resume only to previous state"))
          if from_ = .precheck ∧ goal = .triage then validatePrecheck task
          if goal = .implement ∨ goal = .remediate then validateImplementation task from_.name
          let write := (task.get "mode").equal (.str "write")
          if (goal = .green ∨ goal = .falsify) ∧ write then
            let _ ← validateCurrentGreen host task
          if goal = .adversarialReview ∧ write then
            let cycle ← validateCurrentGreen host task
            validateCurrentFalsification host task cycle
          if goal = .finalAudit then validateFinalAudit host task
          if goal = .finalize then validateFinalize host task

end

end StateMachine

end CarbonLab.Aegis
