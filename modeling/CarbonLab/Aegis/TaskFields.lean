import CarbonLab.Aegis.TaskSchema

/-!
# What the validators accept

The records that `validate_task`, `validate_tdd_cycle` and
`validate_falsification_receipt` accept, field by field.
-/

namespace CarbonLab.Aegis

/-- `hash(value)` does not raise. -/
def Hashable (value : Json) : Prop := value.arr? = none ∧ value.obj? = none

/-- The value is one of these strings. -/
def isOneOf (value : Json) (names : List Text) : Bool := value.str?.any (· ∈ names)

section

variable {α : Type} {value : Json} {names : List Text} {result : α}
  {next : Bool → Except Raised α} {rest : Unit → Except Raised α}

theorem hash_eq_ok : hash value = .ok () ↔ Hashable value := by
  cases value with
  | arr items => simp [hash, Hashable, Json.arr?]
  | obj fields => simp [hash, Hashable, Json.obj?]
  | _ => simp [hash, Hashable, Json.arr?, Json.obj?]

theorem hashable_of_isOneOf (known : isOneOf value names = true) : Hashable value := by
  cases value with
  | str name => exact ⟨rfl, rfl⟩
  | _ => cases known

theorem hashable_of_null_or (known : value = .null ∨ isOneOf value names = true) :
    Hashable value := by
  rcases known with rfl | known
  · exact ⟨rfl, rfl⟩
  · exact hashable_of_isOneOf known

theorem inSet_eq_ok {known : Bool} :
    inSet value names = .ok known ↔ Hashable value ∧ isOneOf value names = known := by
  cases value with
  | str name => simp [inSet, isOneOf, Hashable, Json.str?, Json.arr?, Json.obj?]
  | arr items => simp [inSet, Hashable, Json.arr?]
  | obj fields => simp [inSet, Hashable, Json.obj?]
  | _ => simp [inSet, isOneOf, Hashable, Json.str?, Json.arr?, Json.obj?]

theorem inNumbers_eq_ok {numbers : List ℤ} {known : Bool} :
    inNumbers value numbers = .ok known ↔
      Hashable value ∧ (numbers.any fun number => value.equal (.int number)) = known := by
  rw [inNumbers, bind_eq_ok, Unique.exists_iff]
  simp only [← hash_eq_ok, pure, Except.pure, Except.ok.injEq]

theorem distinct_eq_ok {values : List Json} {known : Bool} :
    distinct values = .ok known ↔
      (∀ value ∈ values, Hashable value) ∧ allDistinct values = known := by
  rw [distinct, bind_eq_ok, Unique.exists_iff]
  simp only [forM_eq_ok, hash_eq_ok, pure, Except.pure, Except.ok.injEq]

/-! ## Checks before the rest -/

theorem require_bind_eq_ok {condition : Prop} [Decidable condition] {raised : Raised} :
    (require condition raised >>= rest) = .ok result ↔ condition ∧ rest () = .ok result := by
  rw [bind_eq_ok, Unique.exists_iff, require_eq_ok]

theorem unit_bind_eq_ok {first : Except Raised Unit} :
    (first >>= rest) = .ok result ↔ first = .ok () ∧ rest () = .ok result := by
  rw [bind_eq_ok, Unique.exists_iff]

/-- A check that is only made under a condition. -/
theorem ite_bind_eq_ok {condition : Prop} [Decidable condition] {first : Except Raised Unit} :
    (if condition then first >>= rest else rest ()) = .ok result ↔
      (condition → first = .ok ()) ∧ rest () = .ok result := by
  split
  · next holds => rw [unit_bind_eq_ok, forall_prop_of_true holds]
  · next fails => exact (and_iff_right fun holds => absurd holds fails).symm

theorem inSet_bind_eq_ok : (inSet value names >>= next) = .ok result ↔
    Hashable value ∧ next (isOneOf value names) = .ok result := by
  rw [bind_eq_ok]
  simp only [inSet_eq_ok, and_assoc, exists_and_left, exists_eq_left']

theorem inNumbers_bind_eq_ok {numbers : List ℤ} : (inNumbers value numbers >>= next) = .ok result ↔
    Hashable value ∧
      next (numbers.any fun number => value.equal (.int number)) = .ok result := by
  rw [bind_eq_ok]
  simp only [inNumbers_eq_ok, and_assoc, exists_and_left, exists_eq_left']

theorem distinct_bind_eq_ok {values : List Json} : (distinct values >>= next) = .ok result ↔
    (∀ value ∈ values, Hashable value) ∧ next (allDistinct values) = .ok result := by
  rw [bind_eq_ok]
  simp only [distinct_eq_ok, and_assoc, exists_and_left, exists_eq_left']

/-- A value that is one of some strings can be looked up. -/
theorem hashable_and_isOneOf {behind : Prop} :
    (Hashable value ∧ isOneOf value names = true ∧ behind) ↔
      isOneOf value names = true ∧ behind :=
  and_iff_right_of_imp fun known => hashable_of_isOneOf known.1

theorem hashable_and_null_or {behind : Prop} :
    (Hashable value ∧ (value = .null ∨ isOneOf value names = true) ∧ behind) ↔
      (value = .null ∨ isOneOf value names = true) ∧ behind :=
  and_iff_right_of_imp fun known => hashable_of_null_or known.1

end

/-! ## Cycles -/

namespace Assurance

section

variable {host : Host} {cycle receipt : Json}

/-- An event of a cycle. -/
def EventFormed (event : Json) : Prop :=
  event.obj?.isSome = true ∧ isOneOf (event.get "status") tddStatuses = true

theorem validateEvent_iff {event : Json} : validateEvent event = .ok true ↔ EventFormed event := by
  cases event with
  | obj fields =>
      rw [validateEvent, inSet_eq_ok, EventFormed]
      exact ⟨fun known => ⟨rfl, known.2⟩, fun known => ⟨hashable_of_isOneOf known.2, known.2⟩⟩
  | _ => simp [validateEvent, EventFormed, Json.obj?]

/-- A cycle with a ledger of events that begins with its design. -/
structure CycleFormed (host : Host) (cycle : Json) : Prop where
  object : cycle.obj?.isSome = true
  schema : (cycle.get "schema").equal (.int 1) = true
  owner : isId (cycle.get "task_id") = true
  named : isId (cycle.get "cycle_id") = true
  mode : isOneOf (cycle.get "mode") (tddModes.map (·.1)) = true
  status : isOneOf (cycle.get "status") tddStatuses = true
  contract : isSha256 (cycle.get "test_contract_digest") = true
  oracle : isSha256 (cycle.get "oracle_digest") = true
  events : ∃ first later, (cycle.get "events").arr? = some (first :: later) ∧
    (first.get "status").equal (.str "TEST_DESIGNED") = true ∧
    ∀ event ∈ first :: later, EventFormed event
  sealed_ : (cycle.get "cycle_sha256").equal (.str (host.digest (cycle.erase "cycle_sha256"))) = true

theorem validateTddCycle_iff : validateTddCycle host cycle = .ok () ↔ CycleFormed host cycle := by
  simp only [validateTddCycle, requireDigest, require_bind_eq_ok, inSet_bind_eq_ok,
    hashable_and_isOneOf]
  constructor
  · rintro ⟨⟨object, schema⟩, owner, named, mode, status, contract, oracle, rest⟩
    split at rest
    · cases rest
    · cases rest
    · next first later are =>
        simp only [bind_eq_ok, require_eq_ok, exists_const] at rest
        obtain ⟨begins, fetched, designed, passed, each, rfl, sealed_⟩ := rest
        obtain ⟨-, rfl⟩ := fetch_eq_ok.mp fetched
        simp only [every_eq_true, validateEvent_iff] at each
        exact ⟨object, schema, owner, named, mode, status, contract, oracle,
          ⟨first, later, are, designed, each⟩, sealed_⟩
  · rintro ⟨object, schema, owner, named, mode, status, contract, oracle,
      ⟨first, later, are, designed, each⟩, sealed_⟩
    refine ⟨⟨object, schema⟩, owner, named, mode, status, contract, oracle, ?_⟩
    have passed : every validateEvent (first :: later) = .ok true := by
      simpa only [every_eq_true, validateEvent_iff] using each
    rw [are]
    simp only [bind_eq_ok, require_eq_ok, exists_const]
    exact ⟨_, fetch_eq_ok.mpr ⟨(each first List.mem_cons_self).1, rfl⟩, designed, true, passed, rfl,
      sealed_⟩

/-- A falsification receipt up to its outcome. -/
structure ReceiptFormed (host : Host) (receipt : Json) : Prop where
  object : receipt.obj?.isSome = true
  schema : (receipt.get "schema").equal (.int 1) = true
  sealed_ : (receipt.get "receipt_sha256").equal
    (.str (host.digest (receipt.erase "receipt_sha256"))) = true
  owner : isId (receipt.get "task_id") = true
  epoch : isAtLeast 1 (receipt.get "epoch") = true
  cycle : isSha256 (receipt.get "tdd_cycle_digest") = true
  diff : isSha256 (receipt.get "diff_digest") = true
  attacks : ∀ field ∈ [text "methods", "attempts", "boundary_cases"],
    areTexts (receipt.get field) = true ∧ (receipt.get field).truthy = true
  counterexamples : areTexts (receipt.get "counterexamples") = true

theorem wellFormedFalsification_iff :
    wellFormedFalsification host receipt = true ↔ ReceiptFormed host receipt := by
  simp only [wellFormedFalsification, Bool.and_eq_true, List.all_eq_true]
  constructor
  · rintro ⟨⟨⟨⟨⟨⟨⟨⟨object, schema⟩, sealed_⟩, owner⟩, epoch⟩, cycle⟩, diff⟩, attacks⟩, found⟩
    exact ⟨object, schema, sealed_, owner, epoch, cycle, diff, attacks, found⟩
  · rintro ⟨object, schema, sealed_, owner, epoch, cycle, diff, attacks, found⟩
    exact ⟨⟨⟨⟨⟨⟨⟨⟨object, schema⟩, sealed_⟩, owner⟩, epoch⟩, cycle⟩, diff⟩, attacks⟩, found⟩

/-- A falsification receipt of a task, whose outcome says whether it has counterexamples. -/
structure ReceiptOf (host : Host) (id : Text) (receipt : Json) : Prop where
  formed : ReceiptFormed host receipt
  outcome : isOneOf (receipt.get "outcome") falsificationOutcomes = true
  clean : (receipt.get "outcome").equal (.str "NO_COUNTEREXAMPLE") =
    !(receipt.get "counterexamples").truthy
  owner : (receipt.get "task_id").equal (.str id) = true

theorem validateFalsificationReceipt_iff {id : Text} :
    validateFalsificationReceipt host receipt ⟨.str id, .null, .null, .null⟩ false = .ok true ↔
      ReceiptOf host id receipt := by
  unfold validateFalsificationReceipt
  split
  · next formed =>
      rw [wellFormedFalsification_iff] at formed
      rw [inSet_bind_eq_ok]
      cases known : isOneOf (receipt.get "outcome") falsificationOutcomes with
      | false =>
          refine iff_of_false (fun both => ?_) fun receipt => ?_
          · cases both.2
          · exact Bool.false_ne_true (known.symm.trans receipt.outcome)
      | true =>
          rw [and_iff_right (hashable_of_isOneOf known), if_pos rfl]
          simp only [pure, Except.pure, Except.ok.injEq, bound, Bool.and_eq_true, beq_iff_eq,
            Bool.not_false, Bool.true_or, Bool.or_eq_true, decide_eq_true_eq, true_or, and_true,
            reduceCtorEq, false_or]
          constructor
          · rintro ⟨clean, owner⟩
            exact ⟨formed, known, clean, owner⟩
          · intro receipt
            exact ⟨receipt.clean, receipt.owner⟩
  · next unformed =>
      refine iff_of_false (fun done => ?_) fun receipt => ?_
      · cases done
      · exact unformed (wellFormedFalsification_iff.mpr receipt.formed)

end

end Assurance

/-! ## Tasks -/

namespace TaskSchema

section

variable {host : Host} {id : Text} {task tdd cycle : Json}

/-- The version, the identity and the plain fields of a task. -/
structure HeaderFormed (task : Json) (expectedId : Option Text) (id : Text) : Prop where
  object : task.obj?.isSome = true
  schema : [2, 3, 4].any (fun version => (task.get "schema").equal (.int version)) = true
  complete : ∀ field ∈ required, (task.get? field).isSome = true
  contract : (task.get "schema").equal (.int 4) = true → (task.get? "tdd").isSome = true
  named : task.get "id" = .str id ∧ isCanonicalName "-" id = true
  expected : expectedId.all (· = id) = true
  mode : isOneOf (task.get "mode") modes = true
  complexity : isOneOf (task.get "complexity") complexities = true
  risk : isOneOf (task.get "risk") severities = true
  state : isOneOf (task.get "state") (Stage.all.map (·.name)) = true
  texts : ∀ field ∈ [text "title", "created", "updated"], isText (task.get field) = true
  counters : ∀ field ∈ [text "revision", "change_epoch"], isAtLeast 0 (task.get field) = true
  precheck : (task.get "precheck").obj?.isSome = true

theorem validateTaskId_eq_ok {value : Json} :
    validateTaskId value = .ok id ↔ value = .str id ∧ isCanonicalName "-" id = true := by
  cases value with
  | str name =>
      simp only [validateTaskId, Json.str?, Json.str.injEq]
      split
      · next canonical =>
          rw [Except.ok.injEq]
          exact ⟨fun same => ⟨same, same ▸ canonical⟩, And.left⟩
      · next other =>
          refine iff_of_false (fun done => ?_) ?_
          · cases done
          · rintro ⟨rfl, canonical⟩
            exact other canonical
  | _ => simp [validateTaskId, Json.str?]

theorem missing_eq_nil : required.filter (fun field => (task.get? field).isNone) = [] ↔
    ∀ field ∈ required, (task.get? field).isSome = true := by
  simp only [List.filter_eq_nil_iff, Bool.not_eq_true, Option.isNone_eq_false_iff]

theorem requireOneOf_bind_eq_ok {α : Type} {field message : Text} {names : List Text}
    {rest : Unit → Except Raised α} {result : α} :
    (requireOneOf task field names message >>= rest) = .ok result ↔
      isOneOf (task.get field) names = true ∧ rest () = .ok result := by
  rw [requireOneOf, bind_assoc, inSet_bind_eq_ok, require_bind_eq_ok, hashable_and_isOneOf]

theorem validateHeader_iff {expectedId : Option Text} :
    validateHeader task expectedId = .ok id ↔ HeaderFormed task expectedId id := by
  simp only [validateHeader, require_bind_eq_ok, inNumbers_bind_eq_ok, missing_eq_nil]
  rw [@bind_eq_ok _ _ _ (validateTaskId (task.get "id"))]
  simp only [validateTaskId_eq_ok, require_bind_eq_ok, requireOneOf_bind_eq_ok, pure, Except.pure,
    Except.ok.injEq]
  constructor
  · rintro ⟨object, -, schema, complete, contract, found, named, expected, mode, complexity, risk,
      state, title, created, updated, revision, epoch, precheck, rfl⟩
    refine ⟨object, schema, complete, contract, named, expected, mode, complexity, risk, state, ?_, ?_,
      precheck⟩
    · simp only [List.forall_mem_cons, List.not_mem_nil, false_implies, implies_true, and_true]
      exact ⟨title, created, updated⟩
    · simp only [List.forall_mem_cons, List.not_mem_nil, false_implies, implies_true, and_true]
      exact ⟨revision, epoch⟩
  · intro formed
    have texts := formed.texts
    have counters := formed.counters
    simp only [List.forall_mem_cons, List.not_mem_nil, false_implies, implies_true, and_true]
      at texts counters
    have numbered : Hashable (task.get "schema") := by
      cases is : task.get "schema" with
      | arr items =>
          have schema := formed.schema
          simp [is, Json.equal, Json.number?] at schema
      | obj fields =>
          have schema := formed.schema
          simp [is, Json.equal, Json.number?] at schema
      | _ => exact ⟨rfl, rfl⟩
    exact ⟨formed.object, numbered, formed.schema, formed.complete, formed.contract, id, formed.named,
      formed.expected, formed.mode, formed.complexity, formed.risk, formed.state, texts.1, texts.2.1,
      texts.2.2, counters.1, counters.2, formed.precheck, rfl⟩

/-- A cycle of a task. -/
def CycleOf (host : Host) (id : Text) (cycle : Json) : Prop :=
  Assurance.CycleFormed host cycle ∧ (cycle.get "task_id").equal (.str id) = true

theorem validateCycle_iff : validateCycle host id cycle = .ok () ↔ CycleOf host id cycle := by
  rw [CycleOf, ← Assurance.validateTddCycle_iff, validateCycle]
  cases valid : Assurance.validateTddCycle host cycle with
  | ok _ => simp
  | error raised =>
      refine iff_of_false (fun done => ?_) fun both => ?_
      · cases done
      · cases both.1

/-- The development record of a task. -/
structure TddFormed (host : Host) (id : Text) (tdd : Json) : Prop where
  object : tdd.obj?.isSome = true
  complete : ∀ field ∈ Fields.ofPairs emptyTdd, (tdd.get? field.1).isSome = true
  mode : tdd.get "mode" = .null ∨ isOneOf (tdd.get "mode") (Assurance.tddModes.map (·.1)) = true
  flags : ∀ field ∈ [text "test_design_complete", "baseline_executed", "harness_valid",
    "baseline_intact"], tdd.get field = .bool true ∨ tdd.get field = .bool false
  digests : ∀ field ∈ [text "test_contract_digest", "frozen_test_contract_digest", "oracle_digest",
    "frozen_oracle_digest", "baseline_implementation_digest", "observed_implementation_digest"],
    nullOr (tdd.get field) isSha256 = true
  outcome : tdd.get "baseline_outcome" = .null ∨
    isOneOf (tdd.get "baseline_outcome") baselineOutcomes = true
  required : tdd.get "required_baseline_outcome" = .null ∨
    isOneOf (tdd.get "required_baseline_outcome") baselineOutcomes = true
  reason : (tdd.get "semantic_reason").str?.isSome = true
  green : nullOr (tdd.get "green_epoch") (isAtLeast 1) = true
  cycles : ∃ cycles, (tdd.get "cycles").arr? = some cycles ∧
    (∀ cycle ∈ cycles, CycleOf host id cycle) ∧ allDistinct (cycles.map (·.get "cycle_id")) = true ∧
    nullOr (tdd.get "active_cycle_id") (inList · (cycles.map (·.get "cycle_id"))) = true

theorem missing_tdd_eq_nil : ((Fields.ofPairs emptyTdd).filterMap fun field =>
      if (tdd.get? field.1).isNone then some field.1 else none) = [] ↔
    ∀ field ∈ Fields.ofPairs emptyTdd, (tdd.get? field.1).isSome = true := by
  rw [List.filterMap_eq_nil_iff]
  refine forall_congr' fun field => imp_congr_right fun _ => ?_
  cases tdd.get? field.1 <;> simp

/-- The identifiers of cycles are strings. -/
theorem hashable_cycleIds {cycles : List Json} (each : ∀ cycle ∈ cycles, CycleOf host id cycle) :
    ∀ value ∈ cycles.map (·.get "cycle_id"), Hashable value := by
  rw [List.forall_mem_map]
  intro cycle member
  have named := (each cycle member).1.named
  cases is : cycle.get "cycle_id" with
  | str name => exact ⟨rfl, rfl⟩
  | _ =>
      rw [is] at named
      cases named

theorem forM_require_bind_eq_ok {α β : Type} {items : List α} {passes : α → Prop}
    [DecidablePred passes] {raised : α → Raised} {rest : Unit → Except Raised β} {result : β} :
    ((items.forM fun item => require (passes item) (raised item)) >>= rest) = .ok result ↔
      (∀ item ∈ items, passes item) ∧ rest () = .ok result := by
  rw [unit_bind_eq_ok, forM_eq_ok]
  simp only [require_eq_ok]

theorem validateTdd_iff : validateTdd host id tdd = .ok () ↔ TddFormed host id tdd := by
  simp only [validateTdd, require_bind_eq_ok, inSet_bind_eq_ok, forM_require_bind_eq_ok,
    hashable_and_null_or, missing_tdd_eq_nil]
  constructor
  · rintro ⟨object, complete, mode, flags, digests, outcome, required, reason, rest⟩
    split at rest
    · cases rest
    · next cycles are =>
        rw [require_bind_eq_ok, unit_bind_eq_ok, forM_eq_ok, distinct_bind_eq_ok, require_bind_eq_ok,
          require_eq_ok] at rest
        simp only [validateCycle_iff] at rest
        obtain ⟨green, each, -, apart, active⟩ := rest
        exact ⟨object, complete, mode, flags, digests, outcome, required, reason, green,
          ⟨cycles, are, each, apart, active⟩⟩
  · rintro ⟨object, complete, mode, flags, digests, outcome, required, reason, green,
      ⟨cycles, are, each, apart, active⟩⟩
    refine ⟨object, complete, mode, flags, digests, outcome, required, reason, ?_⟩
    rw [are]
    simp only [unit_bind_eq_ok, forM_eq_ok, distinct_bind_eq_ok, require_eq_ok, validateCycle_iff]
    exact ⟨green, each, hashable_cycleIds each, apart, active⟩

/-- The receipts of a task. -/
@[mk_iff]
structure ReceiptsFormed (host : Host) (id : Text) (task : Json) : Prop where
  digests : ∀ field ∈ [text "implementation_digest", "diff_digest", "evidence_set_digest"],
    nullOr (task.get field) isSha256 = true
  falsification : task.get "falsification" ≠ .null →
    Assurance.ReceiptOf host id (task.get "falsification")
  review : task.get "review_receipt" ≠ .null →
    Review.intact host (task.get "review_receipt") = true ∧
      ((task.get "review_receipt").get "task_id").equal (.str id) = true

theorem validateReceipts_iff : validateReceipts host id task = .ok () ↔
    ReceiptsFormed host id task := by
  have reviewed : (if task.get "review_receipt" ≠ .null then (do
      require (Review.intact host (task.get "review_receipt")) (schemaError "invalid review receipt")
      require (((task.get "review_receipt").get "task_id").equal (.str id))
        (schemaError "review receipt belongs to another task"))
      else pure ()) = Except.ok () ↔
      (task.get "review_receipt" ≠ .null → Review.intact host (task.get "review_receipt") = true ∧
        ((task.get "review_receipt").get "task_id").equal (.str id) = true) := by
    split
    · next present =>
        rw [require_bind_eq_ok, require_eq_ok]
        exact ⟨fun both _ => both, fun both => both present⟩
    · next absent => exact ⟨fun _ present => absurd present absent, fun _ => rfl⟩
  rw [validateReceipts, forM_require_bind_eq_ok]
  simp only [ne_eq]
  constructor
  · rintro ⟨digests, rest⟩
    split at rest
    · next present =>
        simp only [bind_eq_ok, require_eq_ok, exists_const] at rest
        obtain ⟨_, attacked, rfl, rest⟩ := rest
        exact ⟨digests, fun _ => Assurance.validateFalsificationReceipt_iff.mp attacked,
          reviewed.mp rest⟩
    · next absent => exact ⟨digests, fun present => absurd present absent, reviewed.mp rest⟩
  · rintro ⟨digests, attacked, review⟩
    refine ⟨digests, ?_⟩
    split
    · next present =>
        simp only [bind_eq_ok, require_eq_ok, exists_const]
        exact ⟨true, Assurance.validateFalsificationReceipt_iff.mpr (attacked present), rfl,
          reviewed.mpr review⟩
    · exact reviewed.mpr review

/-! ## Lists of a task -/

/-- Objects with identifiers, no two the same. -/
structure UniqueIds (items : List Json) : Prop where
  objects : ∀ item ∈ items, item.obj?.isSome = true
  named : ∀ item ∈ items, (item.get "id").str?.any isRecordId = true
  apart : allDistinct (items.map (·.get "id")) = true

theorem hashable_of_isRecordId {value : Json} (named : value.str?.any isRecordId = true) :
    Hashable value := by
  cases value with
  | str name => exact ⟨rfl, rfl⟩
  | _ => cases named

/-- Values that are all read, one by one, where reading them is safe. -/
theorem mapM_bind_eq_ok {α β : Type} {read : Json → Except Raised β} {safe : Json → Prop}
    {value : Json → β} (reads : ∀ item found, read item = .ok found ↔ safe item ∧ value item = found)
    {items : List Json} {rest : List β → Except Raised α} {result : α} :
    (items.mapM read >>= rest) = .ok result ↔
      (∀ item ∈ items, safe item) ∧ rest (items.map value) = .ok result := by
  rw [bind_eq_ok]
  constructor
  · rintro ⟨found, all, done⟩
    have same := eq_map_of_mapM (fun _ _ here => ((reads _ _).mp here).2.symm) all
    refine ⟨fun item member => ?_, same ▸ done⟩
    obtain ⟨_, _, here⟩ := exists_mem_of_mapM all member
    exact ((reads _ _).mp here).1
  · rintro ⟨safe, done⟩
    refine ⟨_, mapM_eq_ok.mpr ?_, done⟩
    rw [List.forall₂_map_right_iff, List.forall₂_same]
    exact fun item member => (reads _ _).mpr ⟨safe item member, rfl⟩

theorem uniqueIds_iff {items : List Json} {label : Text} :
    uniqueIds items label = .ok () ↔ UniqueIds items := by
  rw [uniqueIds, mapM_bind_eq_ok fun item found => fetch_eq_ok, require_bind_eq_ok,
    distinct_bind_eq_ok, require_eq_ok]
  simp only [List.all_map, List.all_eq_true, Function.comp_apply, List.forall_mem_map]
  constructor
  · rintro ⟨objects, named, -, apart⟩
    exact ⟨objects, named, apart⟩
  · rintro ⟨objects, named, apart⟩
    exact ⟨objects, named, fun item member => hashable_of_isRecordId (named item member), apart⟩

/-- A gate that is waived and has no severity of the constitution. -/
def LocalWaiver (schema gate : Json) : Prop :=
  (isText (gate.get "waiver_reason") = true ∧ isWaiverAuthority (gate.get "waiver_authority") = true) ∨
    ¬ (schema.equal (.int 3) = true ∨ schema.equal (.int 4) = true) ∨
    gate.get "created_revision" = .null

theorem validateLocalWaiver_iff {schema gate : Json} :
    validateLocalWaiver schema gate = .ok () ↔ LocalWaiver schema gate := by
  rw [validateLocalWaiver, require_eq_ok, LocalWaiver]
  tauto

/-- An acceptance gate. -/
structure GateFormed (schema gate : Json) : Prop where
  status : isOneOf (gate.get "status") gateStatuses = true
  description : isText (gate.get "description") = true
  severity : isOneOf (gate.getD "severity" (.str "high")) severities = true
  constitutional : gate.get "gate_severity" = .null ∨
    isOneOf (gate.get "gate_severity") gateSeverities = true
  evidence : ∃ references, (gate.getD "evidence" (.arr [])).arr? = some references ∧
    allDistinct references = true ∧ references.all isEvidenceId = true ∧
    ((gate.get "status").equal (.str "PROVEN") = true → references ≠ [])
  created : isAtLeast 0 (gate.getD "created_revision" (.int 0)) = true
  local_ : (gate.get "status").equal (.str "WAIVED") = true → gate.get "gate_severity" = .null →
    LocalWaiver schema gate ∧ (gate.getD "severity" (.str "high")).equal (.str "critical") = false
  waived : (gate.get "status").equal (.str "WAIVED") = true → gate.get "gate_severity" ≠ .null →
    (gate.get "gate_severity").equal (.str "REQUIRED") = true ∧
      isEvidenceId (gate.get "waiver_evidence") = true

theorem hashable_of_evidenceIds {references : List Json}
    (known : references.all isEvidenceId = true) : ∀ reference ∈ references, Hashable reference := by
  intro reference member
  have isId := List.all_eq_true.mp known reference member
  cases reference with
  | str name => exact ⟨rfl, rfl⟩
  | _ => cases isId

theorem validateGate_iff {schema gate : Json} :
    validateGate schema gate = .ok () ↔ GateFormed schema gate := by
  simp only [validateGate, require_bind_eq_ok, inSet_bind_eq_ok, hashable_and_isOneOf,
    hashable_and_null_or]
  constructor
  · rintro ⟨status, description, severity, constitutional, rest⟩
    split at rest
    · cases rest
    · next references are =>
        simp only [distinct_bind_eq_ok, require_bind_eq_ok] at rest
        obtain ⟨-, ⟨apart, known⟩, proven, created, rest⟩ := rest
        rw [ite_bind_eq_ok, validateLocalWaiver_iff, require_bind_eq_ok, require_eq_ok] at rest
        obtain ⟨local_, required, critical⟩ := rest
        refine ⟨status, description, severity, constitutional,
          ⟨references, are, apart, known, proven⟩, created, fun waived absent => ?_,
          fun waived present => ?_⟩
        · exact ⟨local_ ⟨waived, absent⟩,
            Bool.eq_false_iff.mpr fun is => critical ⟨waived, is, absent⟩⟩
        · exact not_not.mp fun fails => required ⟨waived, present, fails⟩
  · rintro ⟨status, description, severity, constitutional,
      ⟨references, are, apart, known, proven⟩, created, local_, waived⟩
    refine ⟨status, description, severity, constitutional, ?_⟩
    rw [are]
    simp only [distinct_bind_eq_ok, require_bind_eq_ok]
    rw [ite_bind_eq_ok, validateLocalWaiver_iff, require_bind_eq_ok, require_eq_ok]
    refine ⟨hashable_of_evidenceIds known, ⟨apart, known⟩, proven, created,
      fun both => (local_ both.1 both.2).1, fun fails => fails.2.2 (waived fails.1 fails.2.1),
      fun fails => ?_⟩
    exact Bool.false_ne_true ((local_ fails.1 fails.2.2).2.symm.trans fails.2.1)

/-- A risk. -/
structure RiskFormed (risk : Json) : Prop where
  severity : isOneOf (risk.get "severity") severities = true
  status : isOneOf (risk.get "status") riskStatuses = true
  description : isText (risk.get "description") = true
  resolved : (risk.get "status").equal (.str "resolved") = true →
    isText (risk.get "resolution") = true

theorem validateRisk_iff {risk : Json} : validateRisk risk = .ok () ↔ RiskFormed risk := by
  simp only [validateRisk, require_bind_eq_ok, inSet_bind_eq_ok, hashable_and_isOneOf,
    require_eq_ok]
  constructor
  · rintro ⟨severity, status, description, resolved⟩
    exact ⟨severity, status, description, resolved⟩
  · rintro ⟨severity, status, description, resolved⟩
    exact ⟨severity, status, description, resolved⟩

/-- A decision behind others. -/
structure DecisionFormed (earlier : List Json) (decision : Json) : Prop where
  texts : isText (decision.get "statement") = true ∧ isText (decision.get "rationale") = true
  evidence : (decision.getD "evidence" (.arr [])).arr?.isSome = true
  hashable : Hashable (decision.get "supersedes")
  supersedes : nullOr (decision.get "supersedes") (inList · earlier) = true

/-- The decisions, each with those before it. -/
def DecisionsFormed : (earlier : List Json) → List Json → Prop
  | _, [] => True
  | earlier, decision :: later =>
      DecisionFormed earlier decision ∧ DecisionsFormed (decision.get "id" :: earlier) later

theorem validateDecisions_iff {earlier decisions : List Json} :
    validateDecisions earlier decisions = .ok () ↔ DecisionsFormed earlier decisions := by
  induction decisions generalizing earlier with
  | nil => exact iff_of_true rfl trivial
  | cons decision later ih =>
      rw [validateDecisions, DecisionsFormed, ← ih, require_bind_eq_ok, require_bind_eq_ok,
        unit_bind_eq_ok, hash_eq_ok, require_bind_eq_ok]
      constructor
      · rintro ⟨texts, evidence, hashable, supersedes, rest⟩
        exact ⟨⟨texts, evidence, hashable, supersedes⟩, rest⟩
      · rintro ⟨⟨texts, evidence, hashable, supersedes⟩, rest⟩
        exact ⟨texts, evidence, hashable, supersedes, rest⟩

/-- The handoff of a child. -/
structure HandoffFormed (handoff : Json) : Prop where
  named : isText (handoffId handoff) = true
  outcome : isOneOf (handoff.get "outcome")
    [text "accepted", "rejected", "partial", "recovered"] = true
  summary : isText (handoff.get "summary") = true
  evidence : (handoff.getD "evidence" (.arr [])).arr?.isSome = true

theorem validateHandoff_iff {handoff : Json} :
    validateHandoff handoff = .ok () ↔ HandoffFormed handoff := by
  simp only [validateHandoff, require_bind_eq_ok, inSet_bind_eq_ok, hashable_and_isOneOf,
    require_eq_ok]
  constructor
  · rintro ⟨named, outcome, summary, evidence⟩
    exact ⟨named, outcome, summary, evidence⟩
  · rintro ⟨named, outcome, summary, evidence⟩
    exact ⟨named, outcome, summary, evidence⟩

/-- A list of a task. -/
def listOf (task : Json) (field : Text) : List Json := (task.get field).arr?.getD []

theorem requireList_bind_eq_ok {α : Type} {field : Text} {rest : List Json → Except Raised α}
    {result : α} : (requireList task field >>= rest) = .ok result ↔
      (task.get field).arr?.isSome = true ∧ rest (listOf task field) = .ok result := by
  rw [requireList, listOf]
  cases (task.get field).arr? with
  | none => simp [bind_eq_ok]
  | some items => simp

/-- The lists of a task. -/
structure ListsFormed (task : Json) : Prop where
  lists : ∀ field ∈ [text "gates", "risks", "decisions", "child_history", "verification_evidence",
    "transitions"], (task.get field).arr?.isSome = true
  named : ∀ field ∈ [text "gates", "risks", "decisions"], UniqueIds (listOf task field)
  handoffs : ∀ handoff ∈ listOf task "child_history",
    handoff.obj?.isSome = true ∧ Hashable (handoffId handoff) ∧ HandoffFormed handoff
  apart : allDistinct ((listOf task "child_history").map handoffId) = true
  evidence : (listOf task "verification_evidence").all isEvidenceId = true ∧
    allDistinct (listOf task "verification_evidence") = true
  epoch : nullOr (task.get "verification_epoch") (isAtLeast 0) = true
  flags : ∀ field ∈ [text "final_audit_complete", "material_claim"],
    (task.get? field).all (fun value => value = .bool true || value = .bool false) = true
  gates : ∀ gate ∈ listOf task "gates", GateFormed (task.get "schema") gate
  risks : ∀ risk ∈ listOf task "risks", RiskFormed risk
  decisions : DecisionsFormed [] (listOf task "decisions")

theorem handoffId_eq_ok (handoff found : Json) :
    (do
      let lease ← fetch handoff "lease_id"
      fetchD handoff "handoff_id" lease) = .ok found ↔
      handoff.obj?.isSome = true ∧ handoffId handoff = found := by
  simp only [bind_eq_ok, fetch_eq_ok, fetchD_eq_ok]
  constructor
  · rintro ⟨_, ⟨object, rfl⟩, -, same⟩
    exact ⟨object, same⟩
  · rintro ⟨object, same⟩
    exact ⟨_, ⟨object, rfl⟩, object, same⟩

theorem validateLists_iff : validateLists task = .ok () ↔ ListsFormed task := by
  simp only [validateLists, requireList_bind_eq_ok]
  rw [unit_bind_eq_ok, unit_bind_eq_ok, unit_bind_eq_ok, mapM_bind_eq_ok handoffId_eq_ok]
  simp only [uniqueIds_iff, distinct_bind_eq_ok, require_bind_eq_ok, forM_require_bind_eq_ok,
    List.forall_mem_map]
  rw [unit_bind_eq_ok, unit_bind_eq_ok, unit_bind_eq_ok, forM_eq_ok, forM_eq_ok, forM_eq_ok]
  simp only [validateGate_iff, validateRisk_iff, validateDecisions_iff, validateHandoff_iff]
  constructor
  · rintro ⟨gatesList, risksList, decisionsList, handoffsList, evidenceList, moves, gatesNamed,
      risksNamed, decisionsNamed, objects, hashable, apart, known, -, single, epoch, flags, gates,
      risks, decisions, handoffs⟩
    refine ⟨?_, ?_, fun handoff member => ⟨objects handoff member, hashable handoff member,
      handoffs handoff member⟩, apart, ⟨known, single⟩, epoch, flags, gates, risks, decisions⟩
    · simp only [List.forall_mem_cons, List.not_mem_nil, false_implies, implies_true, and_true]
      exact ⟨gatesList, risksList, decisionsList, handoffsList, evidenceList, moves⟩
    · simp only [List.forall_mem_cons, List.not_mem_nil, false_implies, implies_true, and_true]
      exact ⟨gatesNamed, risksNamed, decisionsNamed⟩
  · intro formed
    have lists := formed.lists
    have named := formed.named
    simp only [List.forall_mem_cons, List.not_mem_nil, false_implies, implies_true, and_true]
      at lists named
    exact ⟨lists.1, lists.2.1, lists.2.2.1, lists.2.2.2.1, lists.2.2.2.2.1, lists.2.2.2.2.2,
      named.1, named.2.1, named.2.2, fun handoff member => (formed.handoffs handoff member).1,
      fun handoff member => (formed.handoffs handoff member).2.1, formed.apart, formed.evidence.1,
      hashable_of_evidenceIds formed.evidence.1, formed.evidence.2, formed.epoch, formed.flags,
      formed.gates, formed.risks, formed.decisions,
      fun handoff member => (formed.handoffs handoff member).2.2⟩

/-! ## The active child -/

/-- The brief of a child. -/
structure BriefFormed (host : Host) (task brief : Json) : Prop where
  object : brief.obj?.isSome = true
  schema : (brief.get "schema").equal (.int 1) = true
  owner : (brief.get "task_id").equal (task.get "id") = true
  epoch : (brief.get "change_epoch").equal (task.get "change_epoch") = true
  evidence : (brief.get "evidence").arr?.isSome = true
  facts : ((brief.get "evidence").arr?.getD []).all isFact = true
  bounded : (host.canonical brief).length ≤ 16384

/-- The active child of a task. -/
structure ActiveChildFormed (host : Host) (task active : Json) : Prop where
  object : active.obj?.isSome = true
  texts : [text "role", "opened", "lease_id"].all (fun key => isText (active.get key)) = true
  brief : active.get "context_brief" ≠ .null → BriefFormed host task (active.get "context_brief") ∧
    (active.get "context_brief_sha256").equal
      (.str (host.digest (active.get "context_brief"))) = true

theorem validateActiveChild_iff : validateActiveChild host task = .ok () ↔
    (task.get "active_child" ≠ .null → ActiveChildFormed host task (task.get "active_child")) := by
  rw [validateActiveChild]
  split
  · next present =>
      rw [forall_prop_of_true present, require_bind_eq_ok]
      dsimp only
      split
      · next briefed =>
          rw [require_bind_eq_ok, require_bind_eq_ok, require_eq_ok]
          constructor
          · rintro ⟨⟨object, texts⟩, ⟨isObject, schema, owner, epoch, evidence⟩, facts, bounded, same⟩
            exact ⟨object, texts, fun _ =>
              ⟨⟨isObject, schema, owner, epoch, evidence, facts, bounded⟩, same⟩⟩
          · rintro ⟨object, texts, brief⟩
            obtain ⟨⟨isObject, schema, owner, epoch, evidence, facts, bounded⟩, same⟩ := brief briefed
            exact ⟨⟨object, texts⟩, ⟨isObject, schema, owner, epoch, evidence⟩, facts, bounded, same⟩
      · next plain =>
          constructor
          · rintro ⟨⟨object, texts⟩, -⟩
            exact ⟨object, texts, fun briefed => absurd briefed plain⟩
          · rintro ⟨object, texts, -⟩
            exact ⟨⟨object, texts⟩, rfl⟩
  · next absent => exact iff_of_true rfl fun present => absurd present absent

end

end TaskSchema

end CarbonLab.Aegis
