import CarbonLab.Aegis.CycleStep
import Mathlib.Logic.Relation

/-!
# The grammar of a cycle

A cycle that was made by `new_tdd_cycle` and taken on by the four functions tells by its
events how far it came: they form a word that is cut where a function ended, with one more
event where the cycle was aborted.
-/

namespace CarbonLab.Aegis

namespace Assurance

variable {host : Host}

/-! ## One step, told by the function that took it -/

/-- What a function makes of a cycle that stood at a status: new fields and events. -/
structure Shape (host : Host) (cycle next : Json) (before status : Text) (fields : List (Text × Json))
    (statuses : List Text) : Prop where
  valid : validateTddCycle host cycle = .ok ()
  beforeIs : cycle.get "status" = .str before
  others : ∀ field ∈ fields, field.1 ∈ stepFields
  is : ∃ added, next = advanceCycle host cycle (("status", .str status) :: fields) added ∧
    added.map (·.get "status") = statuses.map Json.str

/-- What each of the four functions does. -/
inductive Kind (host : Host) (cycle next : Json) : Prop
  | baseline (expected observed : Text) (digest : Json) (mode : modeOf cycle = .ok (expected, observed))
      (shape : Shape host cycle next "TEST_DESIGNED" observed
        [("baseline_implementation_digest", digest),
          ("frozen_test_contract_digest", cycle.get "test_contract_digest"),
          ("frozen_oracle_digest", cycle.get "oracle_digest")]
        ["BASELINE_EXECUTED", observed, "TEST_CONTRACT_FROZEN"])
  | green (before : Text) (member : before ∈ baselineStatuses) (base epoch : ℤ)
      (implementation diff : Json) (read : host.int (cycle.get "baseline_epoch") = .ok base)
      (later : base < epoch)
      (shape : Shape host cycle next before "GREEN_PROVEN" [("green_epoch", .int epoch),
        ("green_implementation_digest", implementation), ("green_diff_digest", diff)]
        ["GREEN_PROVEN"])
  | complete (shape : Shape host cycle next "GREEN_PROVEN" "TDD_CYCLE_COMPLETE" []
      ["TDD_CYCLE_COMPLETE"])
  | abort (before : Text) (live : before ∉ [text "TDD_CYCLE_ABORTED", "TDD_CYCLE_COMPLETE"])
      (shape : Shape host cycle next before "TDD_CYCLE_ABORTED" [] ["TDD_CYCLE_ABORTED"])

section

variable {cycle next : Json}

theorem status_event {status time : Text} {details : List (Text × Json)}
    (nodup : ((text "status" :: text "at" :: details.map (·.1))).Nodup) :
    (event status time details).get "status" = .str status :=
  get_event nodup List.mem_cons_self

/-- Each step is of one kind. -/
theorem CycleStep.kind (step : CycleStep host cycle next) : Kind host cycle next := by
  cases step with
  | baseline times baseline done =>
      simp only [recordBaseline, requireDigest, bind_eq_ok, require_eq_ok, exists_const] at done
      obtain ⟨_, valid, designed, mode, modeIs, _, _, _, _, _, _, _, argv, _, is⟩ := done
      refine .baseline mode.1 mode.2 _ modeIs ⟨valid, Json.equal_str.mp designed, by simp [stepFields],
        _, (Except.ok.inj is).symm, ?_⟩
      simp only [List.map_cons, List.map_nil]
      rw [status_event (by simp [Baseline.common]), status_event (by simp [Baseline.common]),
        status_event (by simp)]
  | green time green done =>
      simp only [recordGreen, requireDigest, bind_eq_ok, require_eq_ok, exists_const] at done
      obtain ⟨_, valid, _, baseline, rfl, _, _, done⟩ := done
      obtain ⟨before, isBaseline, beforeIs⟩ := inSet_eq_true.mp baseline
      split at done
      · cases done
      · next epoch _ =>
          simp only [bind_eq_ok, require_eq_ok, exists_const] at done
          obtain ⟨value, found, base, read, later, _, _, _, _, _, argv, _, is⟩ := done
          rw [← StateStore.get_of_get? (item_eq_ok.mp found)] at read
          refine .green before isBaseline base epoch _ _ read later ⟨valid, beforeIs,
            by simp [stepFields], _, (Except.ok.inj is).symm, ?_⟩
          simp only [List.map_cons, List.map_nil]
          rw [status_event (by simp)]
  | complete time done =>
      simp only [completeTddCycle, bind_eq_ok, require_eq_ok, exists_const] at done
      obtain ⟨_, valid, proven, epoch, _, is⟩ := done
      refine .complete ⟨valid, Json.equal_str.mp proven, by simp, _, (Except.ok.inj is).symm, ?_⟩
      simp only [List.map_cons, List.map_nil]
      rw [status_event (by simp)]
  | abort time reason done =>
      simp only [abortTddCycle, bind_eq_ok, require_eq_ok, exists_const] at done
      obtain ⟨_, valid, ended, notEnded, open_, _, is⟩ := done
      obtain ⟨before, events, sound⟩ := validateTddCycle_eq_ok.mp valid
      rw [sound.statusIs, inSet, Except.ok.injEq] at notEnded
      subst notEnded
      refine .abort before (fun member => open_ (decide_eq_true member)) ⟨valid, sound.statusIs,
        by simp, _, (Except.ok.inj is).symm, ?_⟩
      simp only [List.map_cons, List.map_nil]
      rw [status_event (by simp)]

end

/-! ## The word of a cycle -/

/-- The functions after which a cycle can stand. -/
inductive Phase
  | designed
  | observed
  | green
  | complete
  deriving DecidableEq

/-- The events of a cycle that is complete, with the observed status of its mode. -/
def grammar (observed : Text) : List Text :=
  ["TEST_DESIGNED", "BASELINE_EXECUTED", observed, "TEST_CONTRACT_FROZEN", "GREEN_PROVEN",
    "TDD_CYCLE_COMPLETE"]

/-- The number of events with which a function ends. -/
def Phase.events : Phase → ℕ
  | designed => 1
  | observed => 4
  | green => 5
  | complete => 6

/-- The events of a cycle after a function, and after its abort. -/
def Phase.word (phase : Phase) (observed : Text) (aborted : Bool) : List Text :=
  (grammar observed).take phase.events ++ if aborted then [text "TDD_CYCLE_ABORTED"] else []

/-- The status that events tell: the last one that is no freeze. -/
def statusOf (statuses : List Text) : Text :=
  (statuses.reverse.find? (· ≠ text "TEST_CONTRACT_FROZEN")).getD []

/-- What is known of a cycle that stands after a function. -/
structure Grammatical (host : Host) (cycle : Json) (observed : Text) (phase : Phase) (aborted : Bool) :
    Prop where
  mode : ∃ expected, modeOf cycle = .ok (expected, observed)
  events : ∃ events, (cycle.get "events").arr? = some events ∧
    events.map (·.get "status") = (phase.word observed aborted).map Json.str
  unfinished : aborted = true → phase ≠ .complete
  status : cycle.get "status" = .str (statusOf (phase.word observed aborted))
  contract : cycle.get "frozen_test_contract_digest" =
    if phase = .designed then .null else cycle.get "test_contract_digest"
  oracle : cycle.get "frozen_oracle_digest" =
    if phase = .designed then .null else cycle.get "oracle_digest"
  epochs : ∃ base, cycle.get "baseline_epoch" = .int base ∧
    (cycle.get "green_epoch" = .null ∨ ∃ epoch, cycle.get "green_epoch" = .int epoch ∧ base < epoch)
  valid : validateTddCycle host cycle = .ok ()

/-- A cycle that kept the identity and the events of another one. -/
structure Retains (cycle next : Json) : Prop where
  fields : ∀ field ∈ StateStore.immutableCycleFields, next.get? field = cycle.get? field
  events : ∃ added, (next.get "events").arr?.getD [] = (cycle.get "events").arr?.getD [] ++ added

theorem Retains.refl (cycle : Json) : Retains cycle cycle :=
  ⟨fun _ _ => rfl, [], (List.append_nil _).symm⟩

theorem Retains.trans {first second third : Json} (left : Retains first second)
    (right : Retains second third) : Retains first third := by
  obtain ⟨added, leftEvents⟩ := left.events
  obtain ⟨more, rightEvents⟩ := right.events
  refine ⟨fun field member => (right.fields field member).trans (left.fields field member),
    added ++ more, ?_⟩
  rw [rightEvents, leftEvents, List.append_assoc]

section

variable {cycle next : Json} {before status observed : Text} {fields : List (Text × Json)}
  {statuses : List Text} {phase : Phase} {aborted : Bool}

theorem CycleStep.retains (step : CycleStep host cycle next) : Retains cycle next := by
  obtain ⟨before, status, events, fields, added, stepped⟩ := step.stepped
  have apart : ∀ field ∈ StateStore.immutableCycleFields,
      field ∉ stepFields ++ [text "status", "events", "cycle_sha256"] := by
    simp [StateStore.immutableCycleFields, stepFields]
  refine ⟨fun field member => stepped.kept (apart field member), added, ?_⟩
  rw [stepped.next_sound.eventsAre, stepped.sound.eventsAre, Option.getD_some, Option.getD_some]

theorem observed_mem (grammatical : Grammatical host cycle observed phase aborted) :
    observed ∈ baselineStatuses := by
  obtain ⟨expected, mode⟩ := grammatical.mode
  obtain ⟨name, member⟩ := modeOf_eq_ok mode
  simp only [tddModes, List.mem_cons, Prod.mk.injEq, List.not_mem_nil, or_false] at member
  rcases member with ⟨_, _, rfl⟩ | ⟨_, _, rfl⟩ | ⟨_, _, rfl⟩ <;> simp [baselineStatuses]

/-- The status of a cycle after a function. -/
theorem statusOf_word (known : observed ∈ baselineStatuses) :
    statusOf (phase.word observed aborted) =
      if aborted then text "TDD_CYCLE_ABORTED"
      else match phase with
        | .designed => "TEST_DESIGNED"
        | .observed => observed
        | .green => "GREEN_PROVEN"
        | .complete => "TDD_CYCLE_COMPLETE" := by
  have unfrozen : observed ≠ text "TEST_CONTRACT_FROZEN" := by
    rintro rfl
    simp [baselineStatuses] at known
  cases aborted <;> cases phase <;>
    simp [statusOf, Phase.word, grammar, Phase.events, unfrozen]

/-- What the shape of a step says of the cycle after it. -/
theorem Shape.get_kept (shape : Shape host cycle next before status fields statuses) {key : Text}
    (absent : ∀ field ∈ (text "status", Json.str status) :: fields, field.1 ≠ key)
    (events : text "events" ≠ key) (digest : text "cycle_sha256" ≠ key) :
    next.get key = cycle.get key := by
  obtain ⟨added, is, _⟩ := shape.is
  rw [is]
  exact get_advanceCycle absent events digest

theorem Shape.get_set (shape : Shape host cycle next before status fields statuses) {key : Text}
    {value : Json} (nodup : (((text "status", Json.str status) :: fields).map (·.1)).Nodup)
    (member : (key, value) ∈ (text "status", Json.str status) :: fields)
    (events : text "events" ≠ key) (digest : text "cycle_sha256" ≠ key) :
    next.get key = value := by
  obtain ⟨added, is, _⟩ := shape.is
  obtain ⟨_, _, sound⟩ := validateTddCycle_eq_ok.mp shape.valid
  rw [is, advanceCycle, sealCycle, reseal, Json.get_set_of_ne _ digest, addEvents,
    Json.get_set_of_ne _ events]
  exact StateStore.get_of_get? (get?_foldl_set_of_mem sound.object nodup member)

/-- The word grows by the events of the step. -/
theorem Shape.word (shape : Shape host cycle next before status fields statuses) {word : List Text}
    (events : ∃ events, (cycle.get "events").arr? = some events ∧
      events.map (·.get "status") = word.map Json.str) :
    ∃ events, (next.get "events").arr? = some events ∧
      events.map (·.get "status") = (word ++ statuses).map Json.str := by
  obtain ⟨old, oldIs, told⟩ := events
  obtain ⟨added, is, names⟩ := shape.is
  obtain ⟨_, _, sound⟩ := validateTddCycle_eq_ok.mp shape.valid
  have found : next.get? "events" = some (.arr (old ++ added)) := by
    rw [is]
    refine get?_advanceCycle_events sound.object oldIs ?_
    rw [List.forall_mem_cons]
    refine ⟨by simp, fun field member same => ?_⟩
    have inside := shape.others field member
    rw [same] at inside
    simp [stepFields] at inside
  refine ⟨old ++ added, by rw [StateStore.get_of_get? found, Json.arr?], ?_⟩
  rw [List.map_append, List.map_append, told, names]

theorem modeOf_kept (retains : Retains cycle next) : modeOf next = modeOf cycle := by
  have same := retains.fields "mode" (by simp [StateStore.immutableCycleFields])
  rw [modeOf, Json.get, Json.getD, same, modeOf, Json.get, Json.getD]

theorem Retains.get (retains : Retains cycle next) {field : Text}
    (member : field ∈ StateStore.immutableCycleFields) : next.get field = cycle.get field := by
  rw [Json.get, Json.getD, retains.fields field member, Json.get, Json.getD]

/-- A step that leaves the frozen digests alone keeps what is known of them. -/
theorem Shape.frozen (shape : Shape host cycle next before status fields statuses)
    (retains : Retains cycle next) (grammatical : Grammatical host cycle observed phase aborted)
    (spared : ∀ field ∈ fields, field.1 ≠ text "frozen_test_contract_digest" ∧
      field.1 ≠ text "frozen_oracle_digest") (later : Phase)
    (same : later = .designed ↔ phase = .designed) :
    next.get "frozen_test_contract_digest" =
        (if later = .designed then .null else next.get "test_contract_digest") ∧
      next.get "frozen_oracle_digest" =
        (if later = .designed then .null else next.get "oracle_digest") := by
  have contract : next.get "frozen_test_contract_digest" =
      cycle.get "frozen_test_contract_digest" := by
    refine shape.get_kept ?_ (by simp) (by simp)
    rw [List.forall_mem_cons]
    exact ⟨by simp, fun field member => (spared field member).1⟩
  have oracle : next.get "frozen_oracle_digest" = cycle.get "frozen_oracle_digest" := by
    refine shape.get_kept ?_ (by simp) (by simp)
    rw [List.forall_mem_cons]
    exact ⟨by simp, fun field member => (spared field member).2⟩
  simp only [same]
  rw [contract, grammatical.contract, oracle, grammatical.oracle,
    retains.get (by simp [StateStore.immutableCycleFields]),
    retains.get (by simp [StateStore.immutableCycleFields])]
  exact ⟨rfl, rfl⟩

/-- A step takes a cycle that stands after a function to one that stands after its own function. -/
theorem Grammatical.step (grammatical : Grammatical host cycle observed phase aborted)
    (step : CycleStep host cycle next) :
    ∃ later ended, Grammatical host next observed later ended := by
  have retains := step.retains
  obtain ⟨_, _, _, _, _, stepped⟩ := step.stepped
  have known := observed_mem grammatical
  have stands := grammatical.status
  rw [statusOf_word known] at stands
  obtain ⟨expected, mode⟩ := grammatical.mode
  have nextMode : modeOf next = .ok (expected, observed) := (modeOf_kept retains).trans mode
  obtain ⟨base, baseIs, green⟩ := grammatical.epochs
  have nextBase : next.get "baseline_epoch" = .int base := by
    rw [retains.get (by simp [StateStore.immutableCycleFields]), baseIs]
  cases step.kind with
  | baseline expected' observed' digest mode' shape =>
      cases mode.symm.trans mode'
      have names := stands.symm.trans shape.beforeIs
      rw [Json.str.injEq] at names
      obtain ⟨rfl, rfl⟩ : aborted = false ∧ phase = .designed := by
        simp only [baselineStatuses, List.mem_cons, List.not_mem_nil, or_false] at known
        rcases known with rfl | rfl | rfl <;> cases aborted <;> cases phase <;> simp at names ⊢
      have statusIs : next.get "status" = .str observed :=
        shape.get_set (by simp) (by simp) (by simp) (by simp)
      have contract : next.get "frozen_test_contract_digest" = cycle.get "test_contract_digest" :=
        shape.get_set (by simp) (by simp) (by simp) (by simp)
      have oracle : next.get "frozen_oracle_digest" = cycle.get "oracle_digest" :=
        shape.get_set (by simp) (by simp) (by simp) (by simp)
      refine ⟨.observed, false, ⟨expected, nextMode⟩, shape.word grammatical.events, by simp, ?_, ?_, ?_,
        ⟨base, nextBase, ?_⟩, stepped.valid⟩
      · rw [statusOf_word known]
        exact statusIs
      · rw [if_neg (by simp), contract]
        exact (retains.get (by simp [StateStore.immutableCycleFields])).symm
      · rw [if_neg (by simp), oracle]
        exact (retains.get (by simp [StateStore.immutableCycleFields])).symm
      · rw [shape.get_kept (by simp) (by simp) (by simp)]
        exact green
  | green before member base' epoch implementation diff read later shape =>
      have statusIs : next.get "status" = .str "GREEN_PROVEN" :=
        shape.get_set (by simp) (by simp) (by simp) (by simp)
      have names := stands.symm.trans shape.beforeIs
      rw [Json.str.injEq] at names
      obtain ⟨rfl, rfl⟩ : aborted = false ∧ phase = .observed := by
        simp only [baselineStatuses, List.mem_cons, List.not_mem_nil, or_false] at member
        rcases member with rfl | rfl | rfl <;> cases aborted <;> cases phase <;> simp at names ⊢
      rw [baseIs] at read
      cases read
      obtain ⟨contract, oracle⟩ := shape.frozen retains grammatical (by simp) .green
        (by simp)
      refine ⟨.green, false, ⟨expected, nextMode⟩, shape.word grammatical.events, by simp, ?_, contract,
        oracle, ⟨base, nextBase, Or.inr ⟨epoch, ?_, later⟩⟩, stepped.valid⟩
      · rw [statusOf_word known]
        exact statusIs
      · exact shape.get_set (by simp) (by simp) (by simp) (by simp)
  | complete shape =>
      have statusIs : next.get "status" = .str "TDD_CYCLE_COMPLETE" :=
        shape.get_set (by simp) (by simp) (by simp) (by simp)
      have names := stands.symm.trans shape.beforeIs
      rw [Json.str.injEq] at names
      obtain ⟨rfl, rfl⟩ : aborted = false ∧ phase = .green := by
        simp only [baselineStatuses, List.mem_cons, List.not_mem_nil, or_false] at known
        rcases known with rfl | rfl | rfl <;> cases aborted <;> cases phase <;> simp at names ⊢
      obtain ⟨contract, oracle⟩ := shape.frozen retains grammatical (by simp) .complete
        (by simp)
      refine ⟨.complete, false, ⟨expected, nextMode⟩, shape.word grammatical.events, by simp, ?_,
        contract, oracle, ⟨base, nextBase, ?_⟩, stepped.valid⟩
      · rw [statusOf_word known]
        exact statusIs
      · rw [shape.get_kept (by simp) (by simp) (by simp)]
        exact green
  | abort before live shape =>
      have statusIs : next.get "status" = .str "TDD_CYCLE_ABORTED" :=
        shape.get_set (by simp) (by simp) (by simp) (by simp)
      have names := stands.symm.trans shape.beforeIs
      rw [Json.str.injEq] at names
      obtain ⟨rfl, unfinished⟩ : aborted = false ∧ phase ≠ .complete := by
        simp only [List.mem_cons, List.not_mem_nil, or_false, not_or] at live
        rw [← names] at live
        cases aborted <;> cases phase <;> simp at live ⊢
      obtain ⟨contract, oracle⟩ := shape.frozen retains grammatical (by simp) phase Iff.rfl
      refine ⟨phase, true, ⟨expected, nextMode⟩, ?_, fun _ => unfinished, ?_, contract, oracle,
        ⟨base, nextBase, ?_⟩, stepped.valid⟩
      · have word := shape.word grammatical.events
        rw [Phase.word, if_neg Bool.false_ne_true, List.append_nil] at word
        exact word
      · rw [statusOf_word known]
        exact statusIs
      · rw [shape.get_kept (by simp) (by simp) (by simp)]
        exact green

/-- A new cycle stands after its design. -/
theorem grammatical_of_new {time : Text} {new : NewCycle} {first : Json}
    (created : newTddCycle host time new = .ok first) :
    ∃ observed, Grammatical host first observed .designed false := by
  simp only [newTddCycle, requireDigest, bind_eq_ok, require_eq_ok, exists_const] at created
  obtain ⟨owner, named, mode, revision, broken, _, contract, oracle, is⟩ := created
  have firstIs := (Except.ok.inj is).symm
  generalize pairsAre : [(text "schema", Json.int 1), (text "task_id", new.taskId),
    (text "cycle_id", new.cycleId), (text "mode", .str new.mode),
    (text "status", .str "TEST_DESIGNED"), (text "remediation", .bool new.remediation),
    (text "discovered_epoch", new.discoveredEpoch),
    (text "designed_at_revision", new.designedAtRevision),
    (text "test_contract_digest", new.testContractDigest), (text "oracle_digest", new.oracleDigest),
    (text "frozen_test_contract_digest", .null), (text "frozen_oracle_digest", .null),
    (text "baseline_implementation_digest", .null),
    (text "baseline_epoch", if new.remediation then new.discoveredEpoch else .int 0),
    (text "green_epoch", .null),
    (text "events", .arr [event "TEST_DESIGNED" time [("task_revision", new.designedAtRevision),
      ("test_contract_digest", new.testContractDigest), ("oracle_digest", new.oracleDigest),
      ("remediation", .bool new.remediation)]])] = pairs at firstIs
  have distinct : (pairs.map (·.1)).Nodup := by
    rw [← pairsAre]
    simp
  have found {key : Text} {value : Json} (member : (key, value) ∈ pairs)
      (differs : text "cycle_sha256" ≠ key) : first.get key = value := by
    rw [firstIs, sealCycle, reseal, Json.get_set_of_ne _ differs]
    exact StateStore.get_of_get? (Fields.get?_ofPairs member fun pair inside same =>
      congrArg Prod.snd (List.inj_on_of_nodup_map distinct inside member same))
  obtain ⟨⟨name, expected, observed⟩, modeMember, modeName⟩ := List.mem_map.mp mode
  have modeIs : first.get "mode" = .str name := by
    have given : name = new.mode := modeName
    rw [given]
    exact found (by simp [← pairsAre]) (by simp)
  have modeOf_ : modeOf first = .ok (expected, observed) := by
    rw [modeOf, modeIs]
    simp only [tddModes, List.mem_cons, Prod.mk.injEq, List.not_mem_nil, or_false] at modeMember
    rcases modeMember with ⟨rfl, rfl, rfl⟩ | ⟨rfl, rfl, rfl⟩ | ⟨rfl, rfl, rfl⟩ <;> rfl
  have known : observed ∈ baselineStatuses := by
    simp only [tddModes, List.mem_cons, Prod.mk.injEq, List.not_mem_nil, or_false] at modeMember
    rcases modeMember with ⟨_, _, rfl⟩ | ⟨_, _, rfl⟩ | ⟨_, _, rfl⟩ <;> simp [baselineStatuses]
  have statusIs : first.get "status" = .str "TEST_DESIGNED" :=
    found (by simp [← pairsAre]) (by simp)
  have greenIs : first.get "green_epoch" = .null := found (by simp [← pairsAre]) (by simp)
  have contractIs : first.get "test_contract_digest" = new.testContractDigest :=
    found (by simp [← pairsAre]) (by simp)
  have oracleIs : first.get "oracle_digest" = new.oracleDigest :=
    found (by simp [← pairsAre]) (by simp)
  have schemaIs : first.get "schema" = .int 1 := found (by simp [← pairsAre]) (by simp)
  have ownerIs : first.get "task_id" = new.taskId := found (by simp [← pairsAre]) (by simp)
  have namedIs : first.get "cycle_id" = new.cycleId := found (by simp [← pairsAre]) (by simp)
  have baseIs : first.get "baseline_epoch" =
      (if new.remediation then new.discoveredEpoch else .int 0) :=
    found (by simp [← pairsAre]) (by simp)
  obtain ⟨base, baseInt⟩ : ∃ base, (if new.remediation then new.discoveredEpoch else .int 0) =
      Json.int base := by
    split
    · next remediation =>
        have least := broken remediation
        rw [isAtLeast] at least
        cases epoch : new.discoveredEpoch with
        | int value => exact ⟨value, rfl⟩
        | _ =>
            rw [epoch] at least
            cases least
    · exact ⟨0, rfl⟩
  generalize eventIs : event "TEST_DESIGNED" time [(text "task_revision", new.designedAtRevision),
    (text "test_contract_digest", new.testContractDigest), (text "oracle_digest", new.oracleDigest),
    (text "remediation", .bool new.remediation)] = designed at pairsAre
  have eventStatus : designed.get "status" = .str "TEST_DESIGNED" := by
    rw [← eventIs]
    exact status_event (by simp)
  have eventPasses : validateEvent designed = .ok true := by
    rw [← eventIs]
    exact validateEvent_event (by simp) (by simp [tddStatuses])
  have eventsIs : first.get "events" = .arr [designed] := found (by simp [← pairsAre]) (by simp)
  have sound : Sound host first "TEST_DESIGNED" [designed] := {
    object := by
      rw [firstIs, sealCycle, StateStore.isSome_reseal]
      rfl
    schema := by
      rw [schemaIs]
      exact Json.int_equal_int.mpr rfl
    owner := by
      rw [ownerIs]
      exact owner
    named := by
      rw [namedIs]
      exact named
    mode := ⟨name, List.mem_map_of_mem (f := Prod.fst) modeMember, modeIs⟩
    known := by simp [tddStatuses]
    statusIs := statusIs
    contract := by
      rw [contractIs]
      exact contract
    oracle := by
      rw [oracleIs]
      exact oracle
    eventsAre := by rw [eventsIs, Json.arr?]
    designed := ⟨designed, [], rfl, eventStatus⟩
    each := by
      rw [List.forall_mem_singleton]
      exact eventPasses
    sealed_ := by
      rw [firstIs, sealCycle, reseal, StateStore.erase_set_self]
      exact Json.get_set_self rfl }
  refine ⟨observed, ⟨expected, modeOf_⟩, ⟨[designed], sound.eventsAre, ?_⟩, by simp, ?_, ?_, ?_,
    ⟨base, baseIs.trans baseInt, Or.inl greenIs⟩, validateTddCycle_eq_ok.mpr ⟨_, _, sound⟩⟩
  · rw [List.map_singleton, eventStatus]
    rfl
  · rw [statusOf_word known]
    exact statusIs
  · exact found (by simp [← pairsAre]) (by simp)
  · exact found (by simp [← pairsAre]) (by simp)

/-- What a run keeps. -/
theorem retains_of_run {middle : Json} (run : Relation.ReflTransGen (CycleStep host) middle cycle) :
    Retains middle cycle := by
  induction run with
  | refl => exact Retains.refl middle
  | tail _ step ih => exact ih.trans step.retains

/-- A run takes a cycle that stands after a function to another one. -/
theorem Grammatical.run (grammatical : Grammatical host cycle observed phase aborted)
    (run : Relation.ReflTransGen (CycleStep host) cycle next) :
    ∃ later ended, Grammatical host next observed later ended := by
  induction run with
  | refl => exact ⟨phase, aborted, grammatical⟩
  | tail _ step ih =>
      obtain ⟨later, ended, stands⟩ := ih
      exact stands.step step

/-- In every run of a cycle its events, its status, its digests and its epochs agree, its seal is
valid, and what stood in it before stays. -/
theorem cycle_grammar {time : Text} {new : NewCycle} {first middle : Json}
    (created : newTddCycle host time new = .ok first)
    (earlier : Relation.ReflTransGen (CycleStep host) first middle)
    (later : Relation.ReflTransGen (CycleStep host) middle cycle) :
    (∃ observed phase aborted, Grammatical host cycle observed phase aborted) ∧
      Retains middle cycle := by
  obtain ⟨observed, begins⟩ := grammatical_of_new created
  obtain ⟨phase, aborted, stands⟩ := begins.run (earlier.trans later)
  exact ⟨⟨observed, phase, aborted, stands⟩, retains_of_run later⟩

end

section Designed

/-- SHA-256 of a new cycle, of the cycle after its baseline, when it is proven, when it is complete,
and when it is aborted after its baseline. -/
def designHost : Host := tableHost
  [(816647555, 0xb4650b68230ed3c1d93a0e071182482ccbc97a8fa88bf008ec8a5b7f88bbedc5),
    (772069556, 0x16026a1d8005a583a9e05bb3d0deebe7af1b1ef95092dc62d8702c5ca0589909),
    (607185144, 0x86dd63b6d6a92b2d1785d6bbf28075a4f3d70240614caa3734818c4ba996e484),
    (799097003, 0x4b269869f020c057cf06c3b615b572b0006e1087ef8d07fdb6626e2249d79449),
    (584782372, 0x7273cccd464f3a6eadc8d7cd778a1a732c2818d04acaf04123508d1aafb25dc4)]

def designTime : Text := "2026-01-01T00:00:00+00:00"

def designNew : NewCycle := ⟨.str "t-1", .str "C-1", "RED_REQUIRED", .int 5, .str (hexText 0),
  .str (hexText 0), false, .null⟩

def redBaseline : Baseline := ⟨"RED", .str (hexText 1), .arr [.str "make", .str "test"],
  .str (hexText 2), .str (hexText 3), "no such function", true, true⟩

def firstGreen : Green := ⟨.int 1, .str (hexText 0), .str (hexText 0), .str (hexText 4),
  .str (hexText 5), .arr [.str "make", .str "test"], .str (hexText 2), .str (hexText 6), true⟩

def designedCycle : Json := ((newTddCycle designHost designTime designNew).toOption).getD .null

def redCycle : Json := ((recordBaseline designHost (designTime, designTime, designTime) designedCycle
  redBaseline).toOption).getD .null

def provenCycle : Json :=
  ((recordGreen designHost designTime redCycle firstGreen).toOption).getD .null

def completeCycle : Json :=
  ((completeTddCycle designHost designTime provenCycle).toOption).getD .null

def abandonedCycle : Json :=
  ((abortTddCycle designHost designTime redCycle "r").toOption).getD .null

theorem new_designedCycle : newTddCycle designHost designTime designNew = .ok designedCycle := by
  decide +kernel

theorem baseline_designedCycle : recordBaseline designHost (designTime, designTime, designTime)
    designedCycle redBaseline = .ok redCycle := by
  decide +kernel

theorem green_redCycle : recordGreen designHost designTime redCycle firstGreen = .ok provenCycle := by
  decide +kernel

theorem complete_provenCycle :
    completeTddCycle designHost designTime provenCycle = .ok completeCycle := by
  decide +kernel

theorem abort_redCycle : abortTddCycle designHost designTime redCycle "r" = .ok abandonedCycle := by
  decide +kernel

/-- A cycle that goes through its whole life, and one that is aborted after its baseline. -/
theorem cycle_grammar_designed :
    ((∃ observed phase aborted, Grammatical designHost completeCycle observed phase aborted) ∧
      Retains redCycle completeCycle) ∧
    (∃ observed phase aborted, Grammatical designHost abandonedCycle observed phase aborted) ∧
      Retains redCycle abandonedCycle := by
  have red : Relation.ReflTransGen (CycleStep designHost) designedCycle redCycle :=
    .single (.baseline _ _ baseline_designedCycle)
  constructor
  · refine cycle_grammar new_designedCycle red (.tail (.single (.green _ _ green_redCycle)) ?_)
    exact .complete _ complete_provenCycle
  · exact cycle_grammar new_designedCycle red (.single (.abort designTime "r" abort_redCycle))

end Designed

end Assurance

end CarbonLab.Aegis
