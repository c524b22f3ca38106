import CarbonLab.Aegis.FailClosed

/-!
# Validation of an arbitrary task

`validate_task` of an arbitrary value: where it looks a value up or calls its `get` before
it knows that this is possible.
-/

namespace CarbonLab.Aegis

open TaskSchema

/-- The exceptions that the callers of `validate_task` expect. -/
def declaredKinds : List ErrorKind := [.runtimeError, .valueError]

/-! ## The parts of a task -/

/-- The places of the header of a task. -/
def HeaderSafe (task : Json) (expectedId : Option Text) : Prop :=
  task.obj?.isSome →
  Hashable (task.get "schema") ∧
    ([2, 3, 4].any (fun version => (task.get "schema").equal (.int version)) = true →
      (∀ field ∈ required, (task.get? field).isSome = true) →
      ((task.get "schema").equal (.int 4) = true → (task.get? "tdd").isSome) →
      ∀ id, task.get "id" = .str id ∧ isCanonicalName "-" id = true →
        expectedId.all (· = id) = true →
        Hashable (task.get "mode") ∧ (isOneOf (task.get "mode") modes = true →
          Hashable (task.get "complexity") ∧
            (isOneOf (task.get "complexity") complexities = true →
              Hashable (task.get "risk") ∧ (isOneOf (task.get "risk") severities = true →
                Hashable (task.get "state")))))

/-- A development record up to the outcomes of its baseline. -/
def TddBegun (tdd : Json) : Prop :=
  (tdd.get "mode" = .null ∨ isOneOf (tdd.get "mode") (Assurance.tddModes.map (·.1)) = true) ∧
    (∀ field ∈ [text "test_design_complete", "baseline_executed", "harness_valid",
      "baseline_intact"], tdd.get field = .bool true ∨ tdd.get field = .bool false) ∧
    ∀ field ∈ [text "test_contract_digest", "frozen_test_contract_digest", "oracle_digest",
      "frozen_oracle_digest", "baseline_implementation_digest", "observed_implementation_digest"],
      nullOr (tdd.get field) isSha256 = true

/-- The places of the development record of a task. -/
def TddSafe (host : Host) (id : Text) (tdd : Json) : Prop :=
  tdd.obj?.isSome →
  (∀ field ∈ Fields.ofPairs emptyTdd, (tdd.get? field.1).isSome = true) →
  Hashable (tdd.get "mode") ∧ (TddBegun tdd →
    Hashable (tdd.get "baseline_outcome") ∧
      (tdd.get "baseline_outcome" = .null ∨
          isOneOf (tdd.get "baseline_outcome") baselineOutcomes = true →
        Hashable (tdd.get "required_baseline_outcome") ∧
          (tdd.get "required_baseline_outcome" = .null ∨
              isOneOf (tdd.get "required_baseline_outcome") baselineOutcomes = true →
            (tdd.get "semantic_reason").str?.isSome →
            nullOr (tdd.get "green_epoch") (isAtLeast 1) = true →
            ∀ cycles, (tdd.get "cycles").arr? = some cycles →
              UntilFail CycleSafe (CycleOf host id) cycles)))

/-- The place of the receipts of a task. -/
def ReceiptsSafe (host : Host) (task : Json) : Prop :=
  (∀ field ∈ [text "implementation_digest", "diff_digest", "evidence_set_digest"],
    nullOr (task.get field) isSha256 = true) →
  task.get "falsification" ≠ .null → FalsificationSafe host (task.get "falsification")

/-- The places of an acceptance gate. -/
def GateSafe (gate : Json) : Prop :=
  Hashable (gate.get "status") ∧
    (isOneOf (gate.get "status") gateStatuses = true → isText (gate.get "description") = true →
      Hashable (gate.getD "severity" (.str "high")) ∧
        (isOneOf (gate.getD "severity" (.str "high")) severities = true →
          Hashable (gate.get "gate_severity") ∧
            (gate.get "gate_severity" = .null ∨
                isOneOf (gate.get "gate_severity") gateSeverities = true →
              ∀ evidence, (gate.getD "evidence" (.arr [])).arr? = some evidence →
                ∀ reference ∈ evidence, Hashable reference)))

/-- The places of a risk. -/
def RiskSafe (risk : Json) : Prop :=
  Hashable (risk.get "severity") ∧
    (isOneOf (risk.get "severity") severities = true → Hashable (risk.get "status"))

/-- The places of the decisions, each behind those before it. -/
def DecisionsSafe : (earlier : List Json) → List Json → Prop
  | _, [] => True
  | earlier, decision :: later =>
      isText (decision.get "statement") = true ∧ isText (decision.get "rationale") = true →
      (decision.getD "evidence" (.arr [])).arr?.isSome →
      Hashable (decision.get "supersedes") ∧
        (nullOr (decision.get "supersedes") (inList · earlier) = true →
          DecisionsSafe (decision.get "id" :: earlier) later)

/-- The place of the handoff of a child. -/
def HandoffSafe (handoff : Json) : Prop :=
  isText (handoffId handoff) = true → Hashable (handoff.get "outcome")

/-- A move is numbered behind the one before it. -/
def Numbered (versioned : Bool) (last revision : ℤ) (move : Json) : Prop :=
  if versioned = true then
    (move.get "revision").int? = some revision ∧ last < revision ∧ (move.get "epoch").int?.isSome
  else revision = last

/-- The places of the moves of a task, each behind those before it. -/
def MovesSafe (versioned : Bool) : (previous : Text) → (last : ℤ) → List Json → Prop
  | _, _, [] => True
  | previous, last, move :: moves =>
      move.obj?.isSome ∧ ((move.get "from").equal (.str previous) = true →
        Hashable (move.get "to") ∧
          (isOneOf (move.get "to") (((Stage.ofName? previous).map fun stage =>
              stage.allowed.map (·.name)).getD []) = true →
            ∀ revision, Numbered versioned last revision move →
              isText (move.get "reason") = true ∧ (move.get "at").str?.isSome = true →
              MovesSafe versioned ((move.get "to").str?.getD []) revision moves))

/-- The lists of a task up to its gates. -/
def ListsBegun (task : Json) : Prop :=
  allDistinct ((listOf task "child_history").map handoffId) = true ∧
    (listOf task "verification_evidence").all isEvidenceId = true ∧
    allDistinct (listOf task "verification_evidence") = true ∧
    nullOr (task.get "verification_epoch") (isAtLeast 0) = true ∧
    ∀ field ∈ [text "final_audit_complete", "material_claim"],
      (task.get? field).all (fun value => value = .bool true || value = .bool false) = true

/-- The places of the lists of a task. -/
def ListsSafe (task : Json) : Prop :=
  (∀ field ∈ [text "gates", "risks", "decisions", "child_history", "verification_evidence",
    "transitions"], (task.get field).arr?.isSome = true) →
  (∀ gate ∈ listOf task "gates", gate.obj?.isSome) ∧ (UniqueIds (listOf task "gates") →
    (∀ risk ∈ listOf task "risks", risk.obj?.isSome) ∧ (UniqueIds (listOf task "risks") →
      (∀ decision ∈ listOf task "decisions", decision.obj?.isSome) ∧
        (UniqueIds (listOf task "decisions") →
          (∀ handoff ∈ listOf task "child_history", handoff.obj?.isSome) ∧
          (∀ handoff ∈ listOf task "child_history", Hashable (handoffId handoff)) ∧
            (ListsBegun task →
              UntilFail GateSafe (GateFormed (task.get "schema")) (listOf task "gates") ∧
                ((∀ gate ∈ listOf task "gates", GateFormed (task.get "schema") gate) →
                  UntilFail RiskSafe RiskFormed (listOf task "risks") ∧
                    ((∀ risk ∈ listOf task "risks", RiskFormed risk) →
                      DecisionsSafe [] (listOf task "decisions") ∧
                        (DecisionsFormed [] (listOf task "decisions") →
                          UntilFail HandoffSafe HandoffFormed (listOf task "child_history"))))))))

/-- Going through a task in the order of `validate_task`, every value that is looked up in
a set is no list and no object and everything whose `get` is called is an object, up to the
first check that fails. -/
def TaskSafe (host : Host) (task : Json) (expectedId : Option Text) : Prop :=
  HeaderSafe task expectedId ∧ ∀ id, HeaderFormed task expectedId id →
    (∀ tdd, task.get? "tdd" = some tdd → TddSafe host id tdd) ∧
      ((∀ tdd, task.get? "tdd" = some tdd → TddFormed host id tdd) →
        ReceiptsSafe host task ∧ (ReceiptsFormed host id task →
          ListsSafe task ∧ (ListsFormed task →
            (task.get "active_child" ≠ .null →
              ActiveChildFormed host task (task.get "active_child")) →
            MovesSafe (isVersioned (task.get "schema")) "CREATED" (-1)
              (listOf task "transitions"))))

section

variable {α : Type} {host : Host} {task : Json}

theorem undeclared_typeError : ErrorKind.typeError ∉ declaredKinds := by decide

theorem undeclared_attributeError : ErrorKind.attributeError ∉ declaredKinds := by decide

theorem declared_schemaError {message : Text} : (schemaError message).kind ∈ declaredKinds :=
  List.mem_cons_self

theorem declared_runtimeError {message : Text} : (runtimeError message).kind ∈ declaredKinds :=
  List.mem_cons_self

/-- A check of the schema raises nothing else. -/
theorem declares_schema_bind {condition : Prop} [Decidable condition] {message : Text}
    {rest : Unit → Except Raised α} :
    Declares declaredKinds (require condition (schemaError message) >>= rest) ↔
      (condition → Declares declaredKinds (rest ())) := by
  rw [declares_require_bind]
  exact and_iff_right fun _ => declared_schemaError

theorem declares_schema {condition : Prop} [Decidable condition] {message : Text} :
    Declares declaredKinds (require condition (schemaError message)) :=
  declares_require.mpr fun _ => declared_schemaError

theorem declares_runtime_bind {condition : Prop} [Decidable condition] {message : Text}
    {rest : Unit → Except Raised α} :
    Declares declaredKinds (require condition (runtimeError message) >>= rest) ↔
      (condition → Declares declaredKinds (rest ())) := by
  rw [declares_require_bind]
  exact and_iff_right fun _ => declared_runtimeError

theorem declares_hash_bind {value : Json} {rest : Unit → Except Raised α} :
    Declares declaredKinds (hash value >>= rest) ↔
      Hashable value ∧ Declares declaredKinds (rest ()) := by
  rw [declares_unit_bind, declares_hash undeclared_typeError, hash_eq_ok]
  exact and_congr_right fun safe => forall_prop_of_true safe

theorem declares_validateTaskId_bind {value : Json} {rest : Text → Except Raised α} :
    Declares declaredKinds (validateTaskId value >>= rest) ↔
      ∀ id, value = .str id ∧ isCanonicalName "-" id = true → Declares declaredKinds (rest id) := by
  rw [declares_bind, and_iff_right]
  · simp only [validateTaskId_eq_ok]
  unfold validateTaskId
  split
  · split
    · exact declares_ok
    · exact raises_error.mpr (by decide)
  · exact raises_error.mpr (by decide)

theorem declares_requireOneOf_bind {field message : Text} {names : List Text}
    {rest : Unit → Except Raised α} :
    Declares declaredKinds (requireOneOf task field names message >>= rest) ↔
      Hashable (task.get field) ∧
        (isOneOf (task.get field) names = true → Declares declaredKinds (rest ())) := by
  unfold requireOneOf
  rw [bind_assoc, declares_inSet_bind undeclared_typeError, declares_schema_bind]

theorem declares_validateHeader {expectedId : Option Text} :
    Declares declaredKinds (validateHeader task expectedId) ↔ HeaderSafe task expectedId := by
  unfold validateHeader HeaderSafe
  simp only [missing_eq_nil, declares_schema_bind, declares_runtime_bind, declares_requireOneOf_bind,
    declares_inNumbers_bind undeclared_typeError, declares_validateTaskId_bind, declares_pure,
    implies_true, and_true]

/-- The failures of a cycle are failures of the schema. -/
theorem declares_validateCycle {id : Text} {cycle : Json} :
    Declares declaredKinds (validateCycle host id cycle) ↔ CycleSafe cycle := by
  rw [← @declares_validateTddCycle host [.assuranceError, .runtimeError, .valueError] (by decide)
    (by decide) (by decide)]
  unfold validateCycle
  cases Assurance.validateTddCycle host cycle with
  | ok _ => exact iff_of_true declares_schema declares_ok
  | error raised =>
      simp only [Declares, raises_error, List.mem_cons, List.not_mem_nil, or_false]
      by_cases own : raised.kind = .assuranceError
      · rw [if_pos own]
        exact iff_of_true (raises_throw.mpr declared_schemaError) (Or.inl own)
      · rw [if_neg own]
        simp [own, declaredKinds]

/-- A series of checks of the schema raises nothing else. -/
theorem declares_schemas_bind {β : Type} {items : List β} {passes : β → Prop}
    [DecidablePred passes] {message : β → Text} {rest : Unit → Except Raised α} :
    Declares declaredKinds ((items.forM fun item =>
        require (passes item) (schemaError (message item))) >>= rest) ↔
      ((∀ item ∈ items, passes item) → Declares declaredKinds (rest ())) := by
  rw [declares_unit_bind, declares_forM,
    and_iff_right (untilFail_of_forall fun _ _ => declares_schema), forM_eq_ok]
  simp only [require_eq_ok]

theorem declares_validateTdd {id : Text} {tdd : Json} :
    Declares declaredKinds (validateTdd host id tdd) ↔ TddSafe host id tdd := by
  unfold validateTdd TddSafe TddBegun
  simp only [missing_tdd_eq_nil, declares_schema_bind, declares_schemas_bind,
    declares_inSet_bind undeclared_typeError, and_imp]
  refine imp_congr_right fun _ => imp_congr_right fun _ => and_congr_right fun _ =>
    imp_congr_right fun _ => imp_congr_right fun _ => imp_congr_right fun _ =>
    and_congr_right fun _ => imp_congr_right fun _ => and_congr_right fun _ =>
    imp_congr_right fun _ => imp_congr_right fun _ => ?_
  cases (tdd.get "cycles").arr? with
  | none =>
      refine iff_of_true (declares_throw.mpr declared_schemaError) fun _ cycles is => ?_
      cases is
  | some cycles =>
      simp only [declares_schema_bind, Option.some.injEq, forall_eq']
      refine imp_congr_right fun _ => ?_
      rw [declares_bind, declares_forM]
      simp only [declares_validateCycle, validateCycle_iff, forM_eq_ok]
      refine and_iff_left fun _ valid => ?_
      rw [declares_distinct_bind undeclared_typeError]
      exact ⟨hashable_cycleIds valid, declares_schema_bind.mpr fun _ => declares_schema⟩

theorem declares_validateReceipts {id : Text} :
    Declares declaredKinds (validateReceipts host id task) ↔ ReceiptsSafe host task := by
  unfold validateReceipts ReceiptsSafe
  rw [declares_schemas_bind]
  refine imp_congr_right fun _ => ?_
  simp only [declares_ite, declares_bind, declares_validateFalsificationReceipt undeclared_typeError,
    declares_schema, declares_pure, implies_true, and_true]

theorem declares_validateGate {schema gate : Json} :
    Declares declaredKinds (validateGate schema gate) ↔ GateSafe gate := by
  unfold validateGate GateSafe
  simp only [declares_schema_bind, declares_inSet_bind undeclared_typeError]
  refine and_congr_right fun _ => imp_congr_right fun _ => imp_congr_right fun _ =>
    and_congr_right fun _ => imp_congr_right fun _ => and_congr_right fun _ =>
    imp_congr_right fun _ => ?_
  cases (gate.getD "evidence" (.arr [])).arr? with
  | none =>
      refine iff_of_true (declares_throw.mpr declared_schemaError) fun _ is => ?_
      cases is
  | some evidence =>
      simp only [declares_distinct_bind undeclared_typeError, declares_schema_bind,
        declares_ite, validateLocalWaiver, declares_schema, implies_true, and_true,
        Option.some.injEq, forall_eq']

theorem declares_validateRisk {risk : Json} :
    Declares declaredKinds (validateRisk risk) ↔ RiskSafe risk := by
  unfold validateRisk RiskSafe
  simp only [declares_schema_bind, declares_inSet_bind undeclared_typeError, declares_schema,
    implies_true, and_true]

theorem declares_validateDecisions {earlier decisions : List Json} :
    Declares declaredKinds (validateDecisions earlier decisions) ↔
      DecisionsSafe earlier decisions := by
  induction decisions generalizing earlier with
  | nil => exact iff_of_true declares_ok trivial
  | cons decision later ih =>
      rw [validateDecisions, DecisionsSafe, ← ih]
      simp only [declares_schema_bind, declares_hash_bind]

theorem declares_validateHandoff {handoff : Json} :
    Declares declaredKinds (validateHandoff handoff) ↔ HandoffSafe handoff := by
  unfold validateHandoff HandoffSafe
  simp only [declares_schema_bind, declares_inSet_bind undeclared_typeError, declares_schema,
    implies_true, and_true]

theorem declares_validateMoves {versioned : Bool} {previous : Text} {last : ℤ}
    {moves : List Json} : Declares declaredKinds (validateMoves versioned previous last moves) ↔
      MovesSafe versioned previous last moves := by
  induction moves generalizing previous last with
  | nil => exact iff_of_true declares_ok trivial
  | cons move moves ih =>
      rw [validateMoves, MovesSafe]
      simp only [declares_fetch_bind undeclared_attributeError, declares_schema_bind,
        declares_inSet_bind undeclared_typeError]
      refine and_congr_right fun _ => imp_congr_right fun _ => and_congr_right fun _ =>
        imp_congr_right fun _ => ?_
      cases versioned with
      | false =>
          simp only [Bool.false_eq_true, if_false, Numbered, pure_bind, declares_schema_bind, ih,
            forall_eq]
      | true =>
          simp only [if_true, Numbered]
          cases (move.get "revision").int? with
          | none =>
              refine iff_of_true ?_ fun revision numbered => ?_
              · exact raises_error.mpr declared_schemaError
              · cases numbered.1
          | some revision =>
              simp only [pure_bind, declares_schema_bind, ih, Option.some.injEq]
              constructor
              · rintro safe _ ⟨rfl, after, there⟩
                exact safe after there
              · exact fun safe after there => safe revision ⟨rfl, after, there⟩

theorem declares_validateActiveChild : Declares declaredKinds (validateActiveChild host task) := by
  unfold validateActiveChild
  simp only [declares_ite, declares_schema_bind, declares_schema, declares_pure, implies_true,
    and_true]

theorem declares_uniqueIds_bind {items : List Json} {label : Text} {rest : Unit → Except Raised α} :
    Declares declaredKinds (uniqueIds items label >>= rest) ↔
      (∀ item ∈ items, item.obj?.isSome) ∧
        (UniqueIds items → Declares declaredKinds (rest ())) := by
  have safe : Declares declaredKinds (uniqueIds items label) ↔
      ∀ item ∈ items, item.obj?.isSome := by
    unfold uniqueIds
    rw [declares_mapM_bind (fun item => declares_fetch undeclared_attributeError)
      fun item object => fetch_eq_ok.mpr ⟨object, rfl⟩]
    refine and_iff_left ?_
    rw [declares_schema_bind]
    intro named
    rw [declares_distinct_bind undeclared_typeError]
    exact ⟨fun id member => hashable_of_isRecordId (List.all_eq_true.mp named id member),
      declares_schema⟩
  rw [declares_unit_bind, safe, uniqueIds_iff]

theorem declares_requireList_bind {field : Text} {rest : List Json → Except Raised α} :
    Declares declaredKinds (requireList task field >>= rest) ↔
      ((task.get field).arr?.isSome = true → Declares declaredKinds (rest (listOf task field))) := by
  unfold requireList listOf
  cases (task.get field).arr? with
  | none =>
      refine iff_of_true (raises_error.mpr declared_schemaError) fun found => ?_
      cases found
  | some items => simp

/-- How the identifier of a handoff is read. -/
theorem declares_handoffId (handoff : Json) :
    Declares declaredKinds (do
      let lease ← fetch handoff "lease_id"
      fetchD handoff "handoff_id" lease) ↔ handoff.obj?.isSome := by
  rw [declares_fetch_bind undeclared_attributeError]
  refine and_iff_left_of_imp fun object => ?_
  rw [fetchD_eq_ok.mpr ⟨object, rfl⟩]
  exact declares_ok

theorem declares_validateLists : Declares declaredKinds (validateLists task) ↔ ListsSafe task := by
  unfold validateLists ListsSafe
  simp only [declares_requireList_bind, declares_uniqueIds_bind, List.forall_mem_cons,
    List.not_mem_nil, false_implies, implies_true, and_true, and_imp]
  refine imp_congr_right fun _ => imp_congr_right fun _ => imp_congr_right fun _ =>
    imp_congr_right fun _ => imp_congr_right fun _ => imp_congr_right fun _ =>
    and_congr_right fun _ => imp_congr_right fun _ => and_congr_right fun _ =>
    imp_congr_right fun _ => and_congr_right fun _ => imp_congr_right fun _ => ?_
  rw [declares_mapM_bind declares_handoffId fun handoff object =>
      (handoffId_eq_ok handoff _).mpr ⟨object, rfl⟩,
    declares_distinct_bind undeclared_typeError, List.forall_mem_map]
  refine and_congr_right fun _ => and_congr_right fun _ => ?_
  simp only [ListsBegun, and_imp, declares_schema_bind, declares_distinct_bind undeclared_typeError,
    declares_schemas_bind]
  refine imp_congr_right fun _ => imp_congr_right fun references => ?_
  rw [and_iff_right (hashable_of_evidenceIds references)]
  refine imp_congr_right fun _ => imp_congr_right fun _ => imp_congr_right fun _ => ?_
  simp only [declares_unit_bind, declares_forM, forM_eq_ok, validateGate_iff, validateRisk_iff,
    validateDecisions_iff, validateHandoff_iff, declares_validateGate, declares_validateRisk,
    declares_validateDecisions, declares_validateHandoff]

theorem declares_validateHistory (list : (task.get "transitions").arr?.isSome = true) :
    Declares declaredKinds (validateHistory task) ↔
      MovesSafe (isVersioned (task.get "schema")) "CREATED" (-1) (listOf task "transitions") := by
  unfold validateHistory
  rw [declares_requireList_bind, forall_prop_of_true list]
  simp only [declares_bind, declares_validateMoves, declares_schema, implies_true, and_true]

theorem declares_validateTask {expectedId : Option Text} :
    Declares declaredKinds (validateTask host task expectedId) ↔ TaskSafe host task expectedId := by
  unfold validateTask TaskSafe
  rw [declares_bind, declares_validateHeader]
  simp only [validateHeader_iff]
  refine and_congr_right fun _ => forall_congr' fun id => imp_congr_right fun _ => ?_
  have rest : Declares declaredKinds (do
      validateReceipts host id task
      validateLists task
      validateActiveChild host task
      validateHistory task
      require (isVersioned (task.get "schema") →
          (task.get "integrity_sha256").equal (.str (stateDigest host task)))
        (runtimeError "state integrity digest mismatch")) ↔
      ReceiptsSafe host task ∧ (ReceiptsFormed host id task →
        ListsSafe task ∧ (ListsFormed task →
          (task.get "active_child" ≠ .null →
            ActiveChildFormed host task (task.get "active_child")) →
          MovesSafe (isVersioned (task.get "schema")) "CREATED" (-1)
            (listOf task "transitions"))) := by
    simp only [declares_unit_bind, declares_validateReceipts, declares_validateLists,
      declares_validateActiveChild, declares_require, declared_runtimeError, implies_true, true_and,
      and_true, validateReceipts_iff, validateLists_iff, validateActiveChild_iff]
    refine and_congr_right fun _ => imp_congr_right fun _ => and_congr_right fun _ =>
      imp_congr_right fun lists => imp_congr_right fun _ => ?_
    exact declares_validateHistory (lists.lists "transitions" (by simp))
  cases task.get? "tdd" with
  | none =>
      simp only [rest]
      simp
  | some tdd =>
      simp only [Option.some.injEq, forall_eq']
      rw [declares_unit_bind, declares_validateTdd, rest, validateTdd_iff]

/-- The validators return or raise what they declare exactly when every place that they look
at is safe, up to the first check that fails. -/
theorem validators_fail_closed_iff (value : Json) (expectedId : Option Text)
    (falsified : Assurance.Falsified) (clean : Bool) (reviewed : Review.Reviewed)
    (records taskId : Json) (epoch : ℤ) :
    (Declares declaredKinds (validateTask host value expectedId) ↔ TaskSafe host value expectedId) ∧
      (Declares [.assuranceError] (Assurance.validateTddCycle host value) ↔ CycleSafe value) ∧
      ((∃ valid, Assurance.validateFalsificationReceipt host value falsified clean = .ok valid) ↔
        FalsificationSafe host value) ∧
      ((∃ valid, Review.validateReviewReceipt host value reviewed = .ok valid) ↔
        ReviewSafe host value) ∧
      ((∃ valid, gateWaiver value records.get taskId epoch = .ok valid) ↔
        WaiverSafe value records taskId epoch) := by
  refine ⟨declares_validateTask, declares_validateTddCycle (by decide) (by decide) (by decide),
    ?_, ?_, ?_⟩
  · rw [← declares_nil]
    exact declares_validateFalsificationReceipt List.not_mem_nil
  · rw [← declares_nil]
    exact declares_validateReviewReceipt List.not_mem_nil
  · rw [← declares_nil]
    exact declares_gateWaiver List.not_mem_nil

end

/-- A task whose version is a list, and a cycle whose mode is one. -/
theorem validators_fail_open :
    (∃ raised, validateTask (tableHost []) (.obj [("schema", .arr [])]) none = .error raised ∧
        raised.kind = .typeError) ∧
      ∃ raised, Assurance.validateTddCycle (tableHost []) (.obj (Fields.ofPairs
          [("schema", .int 1), ("task_id", .str "t-1"), ("cycle_id", .str "c-1"),
            ("mode", .arr [])])) = .error raised ∧ raised.kind = .typeError :=
  ⟨⟨_, rfl, rfl⟩, ⟨_, rfl, rfl⟩⟩

end CarbonLab.Aegis
