import CarbonLab.Aegis.CycleStep
import CarbonLab.Aegis.SteadySave

/-!
# The record of a cycle

What `record_tdd_cycle` makes of a task in which a cycle takes a step: the cycle in its new
form, and the summary of it.
-/

namespace CarbonLab.Aegis

namespace StateStore

open StateMachine Assurance

variable {host : Host} {id : Text}

/-! ## Lists -/

theorem replaceFirst_eq {passes : Json → Except Raised Bool} {holds : Json → Bool} {new old : Json}
    {before after : List Json} (told : ∀ entry ∈ before ++ old :: after, passes entry = .ok (holds entry))
    (others : ∀ entry ∈ before, holds entry = false) (here : holds old = true) :
    replaceFirst passes new (before ++ old :: after) = .ok (before ++ new :: after) := by
  induction before with
  | nil =>
      rw [List.nil_append] at told ⊢
      rw [replaceFirst, told old List.mem_cons_self, here]
      rfl
  | cons first before ih =>
      rw [List.forall_mem_cons] at others
      have rest := ih (fun entry member => told entry (List.mem_cons_of_mem _ member)) others.2
      rw [List.cons_append] at told ⊢
      rw [replaceFirst, told first List.mem_cons_self, others.1]
      simp [rest]

theorem firstOf_eq {passes : Json → Except Raised Bool} {holds : Json → Bool} {entries : List Json}
    (told : ∀ entry ∈ entries, passes entry = .ok (holds entry)) :
    firstOf passes entries = .ok (entries.find? holds) := by
  induction entries with
  | nil => rfl
  | cons first entries ih =>
      rw [List.forall_mem_cons] at told
      rw [firstOf, told.1, List.find?_cons]
      cases holds first with
      | true => rfl
      | false => exact ih told.2

/-- Cycles of which one continues an old one are those before and after it. -/
theorem validateCycleChanges_append {old new : Json} {before after : List Json}
    (change : validateCycleChange old new = .ok () ↔ validateCycleChange old old = .ok ()) :
    validateCycleChanges (before ++ old :: after) (before ++ new :: after) = .ok () ↔
      validateCycleChanges (before ++ old :: after) (before ++ old :: after) = .ok () := by
  induction before with
  | nil =>
      simp only [List.nil_append, validateCycleChanges, bind_eq_ok]
      constructor
      · rintro ⟨_, first, rest⟩
        exact ⟨(), change.mp first, rest⟩
      · rintro ⟨_, first, rest⟩
        exact ⟨(), change.mpr first, rest⟩
  | cons first before ih =>
      simp only [List.cons_append, validateCycleChanges, bind_eq_ok]
      exact exists_congr fun _ => and_congr Iff.rfl ih

/-! ## The summary -/

/-- A cycle whose candidate is proven. -/
def Proven (cycle : Json) : Prop :=
  cycle.get "status" = .str "GREEN_PROVEN" ∨ cycle.get "status" = .str "TDD_CYCLE_COMPLETE"

instance (cycle : Json) : Decidable (Proven cycle) := by
  unfold Proven
  infer_instance

/-- The summary of a cycle is one that a development record may hold. -/
structure Fits (cycle : Json) : Prop where
  outcome : ∀ event, baselineOf cycle = some event → event.get "outcome" = .null ∨
    ∃ name ∈ TaskSchema.baselineOutcomes, event.get "outcome" = .str name
  contract : TaskSchema.nullOr (cycle.get "frozen_test_contract_digest") isSha256 = true
  oracle : TaskSchema.nullOr (cycle.get "frozen_oracle_digest") isSha256 = true
  implementation : TaskSchema.nullOr (cycle.get "baseline_implementation_digest") isSha256 = true
  green : TaskSchema.nullOr (cycle.get "green_epoch") (isAtLeast 1) = true
  proven : Proven cycle → TaskSchema.nullOr (cycle.get "green_implementation_digest") isSha256 = true ∧
    TaskSchema.nullOr (cycle.get "green_diff_digest") isSha256 = true

/-- A task whose summary agrees with a cycle in it, its current one. -/
structure Summarizes (task cycle : Json) : Prop where
  stored : cycle ∈ cyclesOf task
  current : currentTddCycle task = some cycle
  mode : (task.get "tdd").get "mode" = cycle.get "mode"
  executed : (task.get "tdd").get "baseline_executed" = .bool ((baselineOf cycle).isSome &&
    !(cycle.get "status").equal (.str "TDD_CYCLE_ABORTED"))
  outcome : (task.get "tdd").get "baseline_outcome" =
    ((baselineOf cycle).map (·.get "outcome")).getD .null
  contract : (task.get "tdd").get "frozen_test_contract_digest" =
    cycle.get "frozen_test_contract_digest"
  oracle : (task.get "tdd").get "frozen_oracle_digest" = cycle.get "frozen_oracle_digest"
  green : (task.get "tdd").get "green_epoch" = cycle.get "green_epoch"
  active : (task.get "tdd").get "active_cycle_id" = cycle.get "cycle_id"

theorem Summarizes.aborted {task cycle : Json} (summarizes : Summarizes task cycle)
    (aborted : cycle.get "status" = .str "TDD_CYCLE_ABORTED") :
    (task.get "tdd").get "baseline_executed" = .bool false := by
  rw [summarizes.executed, aborted, Json.equal_str.mpr rfl]
  simp

/-! ## The development record -/

/-- A development record in which the summary of a cycle stands. -/
def recordedTdd (host : Host) (tdd cycle : Json) (cycles : List Json) (expected : Text) : Json :=
  (tddFields host cycle (baselineOf cycle) expected).foldl
    (fun tdd field => tdd.set field.1 field.2) (tdd.set "cycles" (.arr cycles))

section

variable {tdd cycle next : Json} {before status expected : Text} {events added cycles : List Json}
  {fields : List (Text × Json)}

theorem nodup_tddFields {baseline : Option Json} :
    ((tddFields host cycle baseline expected).map (·.1)).Nodup := by
  simp [tddFields]

theorem cycles_not_mem_tddFields {baseline : Option Json} :
    ∀ field ∈ tddFields host cycle baseline expected, field.1 ≠ text "cycles" := by
  simp [tddFields]

theorem keys_tddFields {baseline : Option Json} :
    ∀ field ∈ tddFields host cycle baseline expected, mergeSurrogates field.1 = field.1 := by
  simp [tddFields]

theorem keyed_recordedTdd (plain : tdd.Plain) :
    (recordedTdd host tdd cycle cycles expected).Keyed :=
  List.foldlRecOn (motive := Json.Keyed) (tddFields host cycle (baselineOf cycle) expected)
    (fun tdd field => tdd.set field.1 field.2)
    ((Json.keyed_of_plain plain).set (mergeSurrogates_text _))
    fun _ here field member => here.set (keys_tddFields field member)

theorem get?_recordedTdd (object : tdd.obj?.isSome = true) {key : Text} {value : Json}
    (member : (key, value) ∈ tddFields host cycle (baselineOf cycle) expected) :
    (recordedTdd host tdd cycle cycles expected).get? key = some value :=
  get?_foldl_set_of_mem (Json.isSome_set.trans object) nodup_tddFields member

theorem get?_recordedTdd_cycles (object : tdd.obj?.isSome = true) :
    (recordedTdd host tdd cycle cycles expected).get? "cycles" = some (.arr cycles) := by
  rw [recordedTdd, get?_foldl_set cycles_not_mem_tddFields, Json.get?_set object, if_pos rfl]

/-- A field of the summary that is read back as it is. -/
theorem get_recordedTdd (plain : tdd.Plain) (object : tdd.obj?.isSome = true) {key : Text}
    {value : Json} (member : (key, value) ∈ tddFields host next (baselineOf next) expected)
    (valuePlain : value.Plain) :
    (recordedTdd host tdd next cycles expected).normalize.get key = value := by
  apply get_of_get?
  rw [(keyed_recordedTdd plain).get?_normalize, get?_recordedTdd object member, Option.map_some,
    valuePlain]

theorem get?_recordedTdd_normalize (plain : tdd.Plain) (object : tdd.obj?.isSome = true)
    (cyclesPlain : ∀ cycle ∈ cycles, cycle.Plain) :
    (recordedTdd host tdd next cycles expected).normalize.get? "cycles" = some (.arr cycles) := by
  rw [(keyed_recordedTdd plain).get?_normalize, get?_recordedTdd_cycles object, Option.map_some]
  exact congrArg some (Json.plain_arr cyclesPlain)

theorem complete_recordedTdd (plain : tdd.Plain) (object : tdd.obj?.isSome = true) :
    ∀ field ∈ TaskSchema.emptyTdd,
      ((recordedTdd host tdd next cycles expected).normalize.get? field.1).isSome = true := by
  have there {key : Text} {value : Json}
      (member : (key, value) ∈ tddFields host next (baselineOf next) expected) :
      ((recordedTdd host tdd next cycles expected).normalize.get? key).isSome = true := by
    rw [(keyed_recordedTdd plain).get?_normalize, get?_recordedTdd object member]
    rfl
  intro field member
  by_cases cycles_ : field.1 = text "cycles"
  · rw [cycles_, (keyed_recordedTdd plain).get?_normalize, get?_recordedTdd_cycles object]
    rfl
  · have named : field.1 ∈ (tddFields host next (baselineOf next) expected).map (·.1) := by
      simp only [TaskSchema.emptyTdd, List.mem_cons, List.not_mem_nil, or_false] at member
      rcases member with rfl | rfl | rfl | rfl | rfl | rfl | rfl | rfl | rfl | rfl | rfl | rfl | rfl |
        rfl | rfl | rfl | rfl <;> first
        | exact absurd rfl cycles_
        | simp [tddFields]
    obtain ⟨pair, inside, is⟩ := List.mem_map.mp named
    rw [← is]
    exact there (show (pair.1, pair.2) ∈ _ from inside)

/-- The outcome that stands in the summary is read back as it is. -/
theorem plain_outcome (stepped : Stepped host cycle next before status events fields added)
    (plain : cycle.Plain) :
    Json.Plain (((baselineOf next).map (·.get "outcome")).getD .null) := by
  cases is : baselineOf next with
  | none => exact Json.plain_null
  | some event => exact stepped.outcome_plain plain is

theorem outcome_of_modeOf {observed : Text} (mode : modeOf cycle = .ok (expected, observed)) :
    mergeSurrogates expected = expected ∧ expected ∈ TaskSchema.baselineOutcomes := by
  obtain ⟨name, member⟩ := modeOf_eq_ok mode
  simp only [tddModes, List.mem_cons, Prod.mk.injEq, List.not_mem_nil, or_false] at member
  rcases member with ⟨_, rfl, _⟩ | ⟨_, rfl, _⟩ | ⟨_, rfl, _⟩ <;> simp [TaskSchema.baselineOutcomes]

theorem validateCycle_eq_ok : TaskSchema.validateCycle host id cycle = .ok () ↔
    validateTddCycle host cycle = .ok () ∧ (cycle.get "task_id").equal (.str id) = true := by
  rw [TaskSchema.validateCycle]
  cases valid : validateTddCycle host cycle with
  | ok _ => simp
  | error raised =>
      constructor
      · intro done
        cases done
      · rintro ⟨done, _⟩
        cases done

theorem isId_eq {value : Json} (named : isId value = true) :
    ∃ name, value = .str name ∧ isRecordId name = true := by
  cases value with
  | str name => exact ⟨name, rfl, named⟩
  | _ => cases named

/-- The fields of a development record in which the summary of a cycle stands. -/
structure Summary (record cycle : Json) (expected : Text) : Prop where
  copied : ∀ pair ∈ [(text "mode", text "mode"), ("test_contract_digest", "test_contract_digest"),
    ("frozen_test_contract_digest", "frozen_test_contract_digest"),
    ("oracle_digest", "oracle_digest"), ("frozen_oracle_digest", "frozen_oracle_digest"),
    ("baseline_implementation_digest", "baseline_implementation_digest"),
    ("observed_implementation_digest", "baseline_implementation_digest"),
    ("green_epoch", "green_epoch"), ("active_cycle_id", "cycle_id")],
    record.get pair.1 = cycle.get pair.2
  outcome : record.get "baseline_outcome" = ((baselineOf cycle).map (·.get "outcome")).getD .null
  required : record.get "required_baseline_outcome" = .str expected
  flags : ∀ key ∈ [text "test_design_complete", "baseline_executed", "harness_valid",
    "baseline_intact"], ∃ flag, record.get key = .bool flag
  reason : (record.get "semantic_reason").str?.isSome = true

theorem summary_recordedTdd (stepped : Stepped host cycle next before status events fields added)
    (plain : tdd.Plain) (object : tdd.obj?.isSome = true) (cyclePlain : cycle.Plain)
    (known : mergeSurrogates expected = expected) :
    Summary (recordedTdd host tdd next cycles expected).normalize next expected := by
  have found (key : Text) {value : Json}
      (member : (key, value) ∈ tddFields host next (baselineOf next) expected)
      (valuePlain : value.Plain) :=
    @get_recordedTdd host tdd next expected cycles plain object key value member valuePlain
  have copied (key source : Text)
      (member : (key, next.get source) ∈ tddFields host next (baselineOf next) expected)
      (differs : source ≠ text "events") :
      (recordedTdd host tdd next cycles expected).normalize.get key = next.get source :=
    found key member (stepped.plain_get cyclePlain differs)
  refine ⟨?_, found _ (by simp [tddFields]) (plain_outcome stepped cyclePlain),
    found _ (by simp [tddFields]) (Json.plain_str.mpr known), ?_, ?_⟩
  · simp only [List.forall_mem_cons, List.not_mem_nil, false_implies, implies_true, and_true]
    exact ⟨copied _ _ (by simp [tddFields]) (by simp), copied _ _ (by simp [tddFields]) (by simp),
      copied _ _ (by simp [tddFields]) (by simp), copied _ _ (by simp [tddFields]) (by simp),
      copied _ _ (by simp [tddFields]) (by simp), copied _ _ (by simp [tddFields]) (by simp),
      copied _ _ (by simp [tddFields]) (by simp), copied _ _ (by simp [tddFields]) (by simp),
      copied _ _ (by simp [tddFields]) (by simp)⟩
  · simp only [List.forall_mem_cons, List.not_mem_nil, false_implies, implies_true, and_true]
    exact ⟨⟨true, found _ (by simp [tddFields]) (Json.plain_bool _)⟩,
      ⟨(baselineOf next).isSome && !(next.get "status").equal (.str "TDD_CYCLE_ABORTED"),
        found _ (by simp [tddFields]) (Json.plain_bool _)⟩,
      ⟨(baselineOf next).any fun event => event.get "harness_valid" = .bool true,
        found _ (by simp [tddFields]) (Json.plain_bool _)⟩,
      ⟨(baselineOf next).any fun event => event.get "baseline_intact" = .bool true,
        found _ (by simp [tddFields]) (Json.plain_bool _)⟩⟩
  · obtain ⟨pair, member, is⟩ : ∃ pair ∈ tddFields host next (baselineOf next) expected,
        pair.1 = text "semantic_reason" ∧ pair.2.normalize.str?.isSome = true := by
      simp [tddFields, Json.normalize, Json.str?]
    rw [(keyed_recordedTdd plain).get_normalize, ← is.1, get_of_get? (get?_recordedTdd object member)]
    exact is.2

/-- The cycles of a record in which one took a step. -/
structure Replaced (host : Host) (id : Text) (next : Json) (cycles : List Json) : Prop where
  plain : ∀ entry ∈ cycles, entry.Plain
  each : TaskSchema.nullOr (next.get "frozen_test_contract_digest") isSha256 = true →
    TaskSchema.nullOr (next.get "frozen_oracle_digest") isSha256 = true →
    ∀ entry ∈ cycles, TaskSchema.validateCycle host id entry = .ok ()
  apart : distinct (cycles.map (·.get "cycle_id")) = .ok true
  active : next.get "cycle_id" ∈ cycles.map (·.get "cycle_id")

theorem replaced_of_stepped {earlier later : List Json}
    (stepped : Stepped host cycle next before status events fields added) (plain : tdd.Plain)
    (contract : Contract host id tdd (earlier ++ cycle :: later)) :
    Replaced host id next (earlier ++ next.normalize :: later) := by
  have cyclesPlain : ∀ entry ∈ earlier ++ cycle :: later, entry.Plain :=
    (plain.get? contract.cyclesAre).item
  have cyclePlain : cycle.Plain := cyclesPlain cycle (by simp)
  have kept : next.get "cycle_id" = cycle.get "cycle_id" := stepped.get_kept (by simp [stepFields])
  have sameId : next.normalize.get "cycle_id" = cycle.get "cycle_id" := by
    rw [stepped.get_normalize cyclePlain (by simp), kept]
  refine ⟨fun entry member => ?_, fun frozen frozenOracle entry member => ?_, ?_, ?_⟩
  · rcases List.mem_append.mp member with old | old
    · exact cyclesPlain entry (List.mem_append_left _ old)
    · rcases List.mem_cons.mp old with rfl | old
      · exact Json.plain_normalize _
      · exact cyclesPlain entry (List.mem_append_right _ (List.mem_cons_of_mem _ old))
  · rcases List.mem_append.mp member with old | old
    · exact contract.each entry (List.mem_append_left _ old)
    · rcases List.mem_cons.mp old with rfl | old
      · refine validateCycle_eq_ok.mpr ⟨stepped.valid_normalize cyclePlain frozen frozenOracle, ?_⟩
        rw [stepped.get_normalize cyclePlain (by simp), stepped.get_kept (by simp [stepFields])]
        exact (validateCycle_eq_ok.mp (contract.each cycle (by simp))).2
      · exact contract.each entry (List.mem_append_right _ (List.mem_cons_of_mem _ old))
  · have apart := contract.apart
    rw [List.map_append, List.map_cons] at apart ⊢
    rw [sameId]
    exact apart
  · rw [List.map_append, List.map_cons, sameId, kept]
    simp

/-- A record in which a cycle took a step is valid when its summary fits. -/
theorem validateTdd_recordedTdd {earlier later : List Json} {observed : Text}
    (stepped : Stepped host cycle next before status events fields added) (plain : tdd.Plain)
    (contract : Contract host id tdd (earlier ++ cycle :: later))
    (mode : modeOf next = .ok (expected, observed)) :
    TaskSchema.validateTdd host id
        (recordedTdd host tdd next (earlier ++ next.normalize :: later) expected).normalize = .ok () ↔
      (∀ event, baselineOf next = some event → event.get "outcome" = .null ∨
        ∃ name ∈ TaskSchema.baselineOutcomes, event.get "outcome" = .str name) ∧
      TaskSchema.nullOr (next.get "frozen_test_contract_digest") isSha256 = true ∧
      TaskSchema.nullOr (next.get "frozen_oracle_digest") isSha256 = true ∧
      TaskSchema.nullOr (next.get "baseline_implementation_digest") isSha256 = true ∧
      TaskSchema.nullOr (next.get "green_epoch") (isAtLeast 1) = true := by
  have object := contract.object
  have known := outcome_of_modeOf mode
  have cyclePlain : cycle.Plain := (plain.get? contract.cyclesAre).item cycle (by simp)
  have replaced := replaced_of_stepped stepped plain contract
  have summary := @summary_recordedTdd host tdd cycle next before status expected events added
    (earlier ++ next.normalize :: later) fields stepped plain object cyclePlain known.1
  have copied := summary.copied
  simp only [List.forall_mem_cons, List.not_mem_nil, false_implies, implies_true, and_true] at copied
  obtain ⟨modeIs, contractIs, frozenIs, oracleIs, frozenOracleIs, implementationIs, observedIs, greenIs,
    activeIs⟩ := copied
  have sound := stepped.next_sound
  constructor
  · intro valid
    obtain ⟨cycles', contract'⟩ := validateTdd_eq_ok.mp valid
    have digests := contract'.digests
    simp only [List.forall_mem_cons] at digests
    obtain ⟨_, frozen, _, frozenOracle, implementation, _⟩ := digests
    have outcome := contract'.outcome
    rw [summary.outcome] at outcome
    refine ⟨fun event first => ?_, frozenIs ▸ frozen, frozenOracleIs ▸ frozenOracle,
      implementationIs ▸ implementation, greenIs ▸ contract'.green⟩
    rw [first] at outcome
    exact outcome
  · rintro ⟨outcome, frozen, frozenOracle, implementation, green⟩
    refine validateTdd_eq_ok.mpr ⟨earlier ++ next.normalize :: later, ?_⟩
    exact {
      object := by
        rw [isSome_normalize, recordedTdd, object_of_foldl_set, Json.isSome_set]
        exact object
      complete := complete_recordedTdd plain object
      mode := by
        rw [modeIs]
        exact Or.inr sound.mode
      flags := by
        intro key member
        obtain ⟨flag, is⟩ := summary.flags key member
        rw [is]
        cases flag with
        | true => exact Or.inl rfl
        | false => exact Or.inr rfl
      digests := by
        simp only [List.forall_mem_cons, List.not_mem_nil, false_implies, implies_true, and_true,
          contractIs, frozenIs, oracleIs, frozenOracleIs, implementationIs, observedIs]
        refine ⟨?_, frozen, ?_, frozenOracle, implementation, implementation⟩
        · rw [TaskSchema.nullOr, sound.contract, Bool.or_true]
        · rw [TaskSchema.nullOr, sound.oracle, Bool.or_true]
      outcome := by
        rw [summary.outcome]
        cases first : baselineOf next with
        | none => exact Or.inl rfl
        | some event => exact outcome event first
      required := by
        rw [summary.required]
        exact Or.inr ⟨expected, known.2, rfl⟩
      reason := summary.reason
      cyclesAre := get?_recordedTdd_normalize plain object replaced.plain
      green := greenIs ▸ green
      each := replaced.each frozen frozenOracle
      apart := replaced.apart
      active := by
        rw [activeIs, TaskSchema.nullOr, Bool.or_eq_true]
        exact Or.inr (List.any_eq_true.mpr
          ⟨next.get "cycle_id", replaced.active, decide_eq_true (Json.alike_self _)⟩) }

end

/-! ## The task -/

/-- A task in which a cycle is recorded. -/
def recordedTask (host : Host) (task tdd cycle : Json) (cycles : List Json) (expected : Text) : Json :=
  let summarized := task.set "tdd" (recordedTdd host tdd cycle cycles expected)
  if Proven cycle then
    (summarized.set "implementation_digest" (cycle.get "green_implementation_digest")).set
      "diff_digest" (cycle.get "green_diff_digest")
  else summarized

section

variable {task tdd cycle next edited : Json} {before status expected observed : Text}
  {events added earlier later : List Json} {fields : List (Text × Json)}

theorem modeOf_eq (stepped : Stepped host cycle next before status events fields added) :
    modeOf next = modeOf cycle := by
  rw [modeOf, stepped.get_kept (by simp [stepFields]), modeOf]

/-- Cycles before a cycle of a valid record have another identifier. -/
theorem apart_of_contract (contract : Contract host id tdd (earlier ++ cycle :: later)) :
    ∀ entry ∈ earlier, (entry.get "cycle_id").equal (cycle.get "cycle_id") = false := by
  have apart := contract.apart
  rw [distinct, bind_eq_ok] at apart
  obtain ⟨_, _, apart⟩ := apart
  have pairs := allDistinct_iff.mp (Except.ok.inj apart)
  rw [List.map_append, List.map_cons, List.pairwise_append] at pairs
  obtain ⟨_, _, across⟩ := pairs
  intro entry member
  have told := across _ (List.mem_map_of_mem member) _ List.mem_cons_self
  obtain ⟨status, events, sound⟩ := validateTddCycle_eq_ok.mp
    (validateCycle_eq_ok.mp (contract.each cycle (by simp))).1
  obtain ⟨name, is, _⟩ := isId_eq sound.named
  rw [is] at told ⊢
  rw [← Json.str_equal_comm]
  exact Bool.eq_false_iff.mpr fun same => told (Or.inr same)

theorem iterate_arr {items : List Json} : iterate (.arr items) = .ok items := rfl

/-- What the function makes of a task in which a cycle takes a step: nothing only where an aborted
cycle has a baseline. -/
theorem applyTddCycle_iff (stepped : Stepped host cycle next before status events fields added)
    (there : task.get? "tdd" = some tdd)
    (contract : Contract host id tdd (earlier ++ cycle :: later))
    (mode : modeOf next = .ok (expected, observed)) :
    applyTddCycle host next task = .ok edited ↔
      (status = text "TDD_CYCLE_ABORTED" → baselineOf next = none) ∧
        edited = recordedTask host task tdd next (earlier ++ next.normalize :: later) expected := by
  have sound := stepped.next_sound
  have looked : (next.get "mode").str?.bind (tddModes.lookup ·) = some (expected, observed) := by
    unfold modeOf at mode
    split at mode
    · next found is =>
        cases mode
        exact is
    · cases mode
  have object {entry : Json} (member : entry ∈ earlier ++ cycle :: later) :
      entry.obj?.isSome = true := by
    obtain ⟨_, _, sound⟩ := validateTddCycle_eq_ok.mp
      (validateCycle_eq_ok.mp (contract.each entry member)).1
    exact sound.object
  have sameId : next.get "cycle_id" = cycle.get "cycle_id" := stepped.get_kept (by simp [stepFields])
  have replaced : replaceFirst
      (fun entry => do return (← fetch entry "cycle_id").equal (next.get "cycle_id")) next.normalize
      (earlier ++ cycle :: later) = .ok (earlier ++ next.normalize :: later) := by
    refine @replaceFirst_eq _ (fun entry => (entry.get "cycle_id").equal (cycle.get "cycle_id")) _ _ _ _
      (fun entry member => ?_) (apart_of_contract contract) ?_
    · rw [fetch_eq_ok.mpr ⟨object member, rfl⟩, sameId]
      rfl
    · obtain ⟨_, _, sound⟩ := validateTddCycle_eq_ok.mp
        (validateCycle_eq_ok.mp (contract.each cycle (by simp))).1
      obtain ⟨name, is, _⟩ := isId_eq sound.named
      rw [is]
      exact Json.equal_str.mpr rfl
  have first : firstOf
      (fun event => do return (← fetch event "status").equal (.str "BASELINE_EXECUTED"))
      (events ++ added) = .ok (baselineOf next) := by
    rw [baselineOf, sound.eventsAre]
    refine firstOf_eq fun event member => ?_
    rw [fetch_eq_ok.mpr ⟨isSome_of_validateEvent (sound.each event member), rfl⟩]
    rfl
  have aborted : status ∈ [observed, text "GREEN_PROVEN", "TDD_CYCLE_COMPLETE"] ↔
      status ≠ text "TDD_CYCLE_ABORTED" := by
    obtain ⟨name, member⟩ := modeOf_eq_ok mode
    constructor
    · rintro inside rfl
      simp only [tddModes, List.mem_cons, Prod.mk.injEq, List.not_mem_nil, or_false] at member inside
      rcases member with ⟨_, _, rfl⟩ | ⟨_, _, rfl⟩ | ⟨_, _, rfl⟩ <;> simp at inside
    · intro live
      rcases stepped.reached with is | known | ⟨expected', here⟩
      · exact absurd is live
      · exact List.mem_cons_of_mem _ known
      · rw [modeOf_eq stepped, here] at mode
        cases mode
        exact List.mem_cons_self
  have proven : Proven next ↔ status ∈ [text "GREEN_PROVEN", "TDD_CYCLE_COMPLETE"] := by
    rw [Proven, stepped.statusIs]
    simp
  have cyclesIs : item tdd "cycles" = .ok (.arr (earlier ++ cycle :: later)) :=
    item_eq_ok.mpr contract.cyclesAre
  have eventsIs : item next "events" = .ok (.arr (events ++ added)) :=
    item_eq_ok.mpr stepped.eventsAre
  have known (names : List Text) : inSet (Json.str status) names = .ok (decide (status ∈ names)) := rfl
  rw [applyTddCycle]
  simp only [looked, item_eq_ok.mpr there, cyclesIs, eventsIs, iterate_arr, ok_bind, replaced, first,
    stepped.statusIs, known, decide_eq_true_eq, aborted, bind_eq_ok, require_eq_ok, exists_const,
    recordedTask, proven]
  refine and_congr ?_ ?_
  · constructor
    · intro live aborted
      by_contra filled
      exact live (Option.isSome_iff_ne_none.mpr filled) aborted
    · intro missing filled aborted
      rw [missing aborted] at filled
      cases filled
  · split
    · exact ⟨fun done => (Except.ok.inj done).symm, fun is => congrArg Except.ok is.symm⟩
    · exact ⟨fun done => (Except.ok.inj done).symm, fun is => congrArg Except.ok is.symm⟩

end

end StateStore

end CarbonLab.Aegis
