import CarbonLab.Aegis.Implementable
import CarbonLab.Lib.JsonKeyed

/-!
# Steps of a cycle

What `record_baseline`, `record_green`, `complete_tdd_cycle` and `abort_tdd_cycle` make of a
cycle: a few fields are set, events are added, and the digest is taken again.
-/

namespace CarbonLab.Aegis

namespace Assurance

variable {host : Host}

/-! ## Valid cycles -/

/-- A valid cycle with its status and its events. -/
structure Sound (host : Host) (cycle : Json) (status : Text) (events : List Json) : Prop where
  object : cycle.obj?.isSome = true
  schema : (cycle.get "schema").equal (.int 1) = true
  owner : isId (cycle.get "task_id") = true
  named : isId (cycle.get "cycle_id") = true
  mode : ∃ mode ∈ tddModes.map (·.1), cycle.get "mode" = .str mode
  known : status ∈ tddStatuses
  statusIs : cycle.get "status" = .str status
  contract : isSha256 (cycle.get "test_contract_digest") = true
  oracle : isSha256 (cycle.get "oracle_digest") = true
  eventsAre : (cycle.get "events").arr? = some events
  designed : ∃ first later, events = first :: later ∧ first.get "status" = .str "TEST_DESIGNED"
  each : ∀ event ∈ events, validateEvent event = .ok true
  sealed_ : cycle.get "cycle_sha256" = .str (host.digest (cycle.erase "cycle_sha256"))

theorem isSome_of_validateEvent {event : Json} (valid : validateEvent event = .ok true) :
    event.obj?.isSome = true := by
  cases event with
  | obj fields => rfl
  | _ => cases valid

theorem plain_status {status : Text} (known : status ∈ tddStatuses) :
    mergeSurrogates status = status := by
  simp only [tddStatuses, List.mem_cons, List.not_mem_nil, or_false] at known
  rcases known with rfl | rfl | rfl | rfl | rfl | rfl | rfl | rfl | rfl <;>
    exact mergeSurrogates_text _

theorem validateTddCycle_eq_ok {cycle : Json} :
    validateTddCycle host cycle = .ok () ↔ ∃ status events, Sound host cycle status events := by
  simp only [validateTddCycle, requireDigest, bind_eq_ok, require_eq_ok, exists_const]
  constructor
  · rintro ⟨⟨object, schema⟩, owner, named, _, mode, rfl, _, known, rfl, contract, oracle, rest⟩
    obtain ⟨mode, isMode, modeIs⟩ := inSet_eq_true.mp mode
    obtain ⟨status, isStatus, statusIs⟩ := inSet_eq_true.mp known
    split at rest
    · cases rest
    · cases rest
    · next first later eventsAre =>
        simp only [bind_eq_ok, require_eq_ok, exists_const] at rest
        obtain ⟨begins, fetched, designed, _, each, rfl, sealed_⟩ := rest
        obtain ⟨_, rfl⟩ := fetch_eq_ok.mp fetched
        exact ⟨status, first :: later, object, schema, owner, named, ⟨mode, isMode, modeIs⟩, isStatus,
          statusIs, contract, oracle, eventsAre, ⟨first, later, rfl, Json.equal_str.mp designed⟩,
          every_eq_true.mp each, Json.equal_str.mp sealed_⟩
  · rintro ⟨status, events, sound⟩
    obtain ⟨mode, isMode, modeIs⟩ := sound.mode
    obtain ⟨first, later, rfl, designed⟩ := sound.designed
    refine ⟨⟨sound.object, sound.schema⟩, sound.owner, sound.named, true,
      inSet_eq_true.mpr ⟨mode, isMode, modeIs⟩, rfl, true,
      inSet_eq_true.mpr ⟨status, sound.known, sound.statusIs⟩, rfl, sound.contract, sound.oracle, ?_⟩
    rw [sound.eventsAre]
    have object := isSome_of_validateEvent (sound.each first List.mem_cons_self)
    simp only [bind_eq_ok, require_eq_ok, exists_const]
    exact ⟨_, fetch_eq_ok.mpr ⟨object, designed⟩, Json.equal_str.mpr rfl, true,
      every_eq_true.mpr sound.each, rfl, Json.equal_str.mpr sound.sealed_⟩

/-! ## One step -/

/-- A cycle with new fields and new events, sealed again. -/
def advanceCycle (host : Host) (cycle : Json) (fields : List (Text × Json)) (events : List Json) :
    Json :=
  sealCycle host (addEvents
    (fields.foldl (fun cycle field => cycle.set field.1 field.2) cycle) events)

/-- The fields that a step sets beside the status, the events and the digest. -/
def stepFields : List Text :=
  ["baseline_implementation_digest", "frozen_test_contract_digest", "frozen_oracle_digest",
    "green_epoch", "green_implementation_digest", "green_diff_digest"]

theorem get?_foldl_set {value : Json} {fields : List (Text × Json)} {key : Text}
    (absent : ∀ field ∈ fields, field.1 ≠ key) :
    (fields.foldl (fun value field => value.set field.1 field.2) value).get? key = value.get? key := by
  induction fields generalizing value with
  | nil => rfl
  | cons field fields ih =>
      rw [List.forall_mem_cons] at absent
      rw [List.foldl_cons, ih absent.2, Json.get?_set_of_ne _ absent.1]

theorem get?_foldl_set_of_mem {value item : Json} {fields : List (Text × Json)} {key : Text}
    (object : value.obj?.isSome = true) (nodup : (fields.map (·.1)).Nodup)
    (member : (key, item) ∈ fields) :
    (fields.foldl (fun value field => value.set field.1 field.2) value).get? key = some item := by
  induction fields generalizing value with
  | nil => cases member
  | cons field fields ih =>
      obtain ⟨fresh, nodup⟩ := List.nodup_cons.mp nodup
      rw [List.foldl_cons]
      rcases List.mem_cons.mp member with rfl | later
      · have absent : ∀ field ∈ fields, field.1 ≠ key := by
          intro field inside same
          exact fresh (List.mem_map.mpr ⟨field, inside, same⟩)
        rw [get?_foldl_set absent, Json.get?_set object, if_pos rfl]
      · exact ih (Json.isSome_set.trans object) nodup later

/-- A step leaves the fields alone that it does not set. -/
theorem get?_advanceCycle {cycle : Json} {fields : List (Text × Json)} {added : List Json} {key : Text}
    (absent : ∀ field ∈ fields, field.1 ≠ key) (events : text "events" ≠ key)
    (digest : text "cycle_sha256" ≠ key) :
    (advanceCycle host cycle fields added).get? key = cycle.get? key := by
  rw [advanceCycle, sealCycle, reseal, Json.get?_set_of_ne _ digest, addEvents,
    Json.get?_set_of_ne _ events, get?_foldl_set absent]

theorem get_advanceCycle {cycle : Json} {fields : List (Text × Json)} {added : List Json} {key : Text}
    (absent : ∀ field ∈ fields, field.1 ≠ key) (events : text "events" ≠ key)
    (digest : text "cycle_sha256" ≠ key) :
    (advanceCycle host cycle fields added).get key = cycle.get key := by
  rw [Json.get, Json.getD, get?_advanceCycle absent events digest, Json.get, Json.getD]

theorem object_of_foldl_set {value : Json} {fields : List (Text × Json)} :
    (fields.foldl (fun value field => value.set field.1 field.2) value).obj?.isSome =
      value.obj?.isSome := by
  induction fields generalizing value with
  | nil => rfl
  | cons field fields ih => rw [List.foldl_cons, ih, Json.isSome_set]

/-- A step adds its events to those of the cycle. -/
theorem get?_advanceCycle_events {cycle : Json} {fields : List (Text × Json)} {events added : List Json}
    (object : cycle.obj?.isSome = true) (eventsAre : (cycle.get "events").arr? = some events)
    (others : ∀ field ∈ fields, field.1 ≠ text "events") :
    (advanceCycle host cycle fields added).get? "events" = some (.arr (events ++ added)) := by
  have earlier : ((((fields.foldl (fun cycle field => cycle.set field.1 field.2)
      cycle).get "events").arr?.getD []) = events) := by
    rw [Json.get, Json.getD, get?_foldl_set others]
    exact congrArg (·.getD []) eventsAre
  rw [advanceCycle, sealCycle, reseal, Json.get?_set_of_ne _ (by simp), addEvents, earlier,
    Json.get?_set (object_of_foldl_set.trans object), if_pos rfl]

/-- One successful call on a cycle. -/
inductive CycleStep (host : Host) (cycle next : Json) : Prop
  | baseline (times : Text × Text × Text) (baseline : Baseline)
      (done : recordBaseline host times cycle baseline = .ok next)
  | green (time : Text) (green : Green) (done : recordGreen host time cycle green = .ok next)
  | complete (time : Text) (done : completeTddCycle host time cycle = .ok next)
  | abort (time reason : Text) (done : abortTddCycle host time cycle reason = .ok next)

/-- What a step does to a cycle. -/
structure Stepped (host : Host) (cycle next : Json) (before status : Text) (events : List Json)
    (fields : List (Text × Json)) (added : List Json) : Prop where
  sound : Sound host cycle before events
  live : before ∉ [text "TDD_CYCLE_ABORTED", "TDD_CYCLE_COMPLETE"]
  is : next = advanceCycle host cycle (("status", .str status) :: fields) added
  known : status ∈ tddStatuses
  reached : status = text "TDD_CYCLE_ABORTED" ∨ status ∈ [text "GREEN_PROVEN", "TDD_CYCLE_COMPLETE"] ∨
    ∃ expected, modeOf cycle = .ok (expected, status)
  keys : ∀ field ∈ fields, field.1 ∈ stepFields
  plain : cycle.Plain → ∀ field ∈ fields, field.2.Plain
  each : ∀ event ∈ added, validateEvent event = .ok true ∧ (event.get "outcome").Plain
  aborts : status = text "TDD_CYCLE_ABORTED" →
    ∀ event ∈ added, event.get "status" ≠ .str "BASELINE_EXECUTED"
  printed : cycle.Plain → TaskSchema.nullOr (next.get "frozen_test_contract_digest") isSha256 = true →
    TaskSchema.nullOr (next.get "frozen_oracle_digest") isSha256 = true →
    ∀ event ∈ added, event.Printed

/-! ### Events -/

theorem get_event {status time : Text} {details : List (Text × Json)} {key : Text}
    (nodup : ((text "status" :: text "at" :: details.map (·.1))).Nodup) {value : Json}
    (member : (key, value) ∈ (text "status", Json.str status) :: (text "at", .str time) :: details) :
    (event status time details).get key = value := by
  have nodup' : (((text "status", Json.str status) :: (text "at", .str time) :: details).map
      (·.1)).Nodup := nodup
  apply StateStore.get_of_get?
  exact Fields.get?_ofPairs member fun pair inside same =>
    congrArg Prod.snd (List.inj_on_of_nodup_map nodup' inside member same)

theorem validateEvent_event {status time : Text} {details : List (Text × Json)}
    (nodup : ((text "status" :: text "at" :: details.map (·.1))).Nodup)
    (known : status ∈ tddStatuses) : validateEvent (event status time details) = .ok true := by
  have found := @get_event status time details "status" nodup _ List.mem_cons_self
  change inSet ((event status time details).get "status") tddStatuses = .ok true
  exact inSet_eq_true.mpr ⟨status, known, found⟩

theorem get_event_of_absent {status time : Text} {details : List (Text × Json)} {key : Text}
    (absent : ∀ pair ∈ (text "status", Json.str status) :: (text "at", .str time) :: details,
      pair.1 ≠ key) : (event status time details).get key = .null := by
  rw [event, Json.get, Json.getD, Json.get?, Json.obj?, Option.bind_some,
    Fields.get?_ofPairs_eq_none absent]
  rfl

theorem printed_event {status time : Text} {details : List (Text × Json)}
    (all : ∀ pair ∈ details, mergeSurrogates pair.1 = pair.1 ∧ pair.2.Printed) :
    (event status time details).Printed := by
  refine Json.printed_ofPairs ?_
  simp only [List.forall_mem_cons]
  exact ⟨⟨mergeSurrogates_text _, Json.printed_str _⟩, ⟨mergeSurrogates_text _, Json.printed_str _⟩, all⟩

/-! ### The four steps -/

theorem sound_of_status {cycle : Json} {status : Text} (valid : validateTddCycle host cycle = .ok ())
    (statusIs : cycle.get "status" = .str status) : ∃ events, Sound host cycle status events := by
  obtain ⟨before, events, sound⟩ := validateTddCycle_eq_ok.mp valid
  have same := sound.statusIs.symm.trans statusIs
  rw [Json.str.injEq] at same
  subst same
  exact ⟨events, sound⟩

theorem isSha256_str {value : Json} (canonical : isSha256 value = true) :
    ∃ string, value = .str string ∧ ∀ letter ∈ string, letter.val < 128 := by
  cases value with
  | str string =>
      refine ⟨string, rfl, fun letter member => ?_⟩
      simp only [isSha256, Json.str?, Option.any_some, Bool.and_eq_true, decide_eq_true_eq,
        List.all_eq_true, isHexDigit] at canonical
      have hex : ∀ letter ∈ text "0123456789abcdef", letter.val < 128 := by simp [text]
      exact hex letter (canonical.2 letter member)
  | _ => cases canonical

theorem plain_of_isSha256 {value : Json} (canonical : isSha256 value = true) : value.Plain := by
  obtain ⟨string, rfl, ascii⟩ := isSha256_str canonical
  exact Json.plain_str.mpr (mergeSurrogates_ascii ascii)

theorem printed_of_isSha256 {value : Json} (canonical : isSha256 value = true) : value.Printed := by
  obtain ⟨string, rfl, _⟩ := isSha256_str canonical
  exact Json.printed_str string

/-- What equals `null` or a digest has no dictionary in it. -/
theorem printed_of_equal {value digest : Json} (same : value.equal digest = true)
    (fits : TaskSchema.nullOr digest isSha256 = true) : value.Printed := by
  simp only [TaskSchema.nullOr, Bool.or_eq_true, decide_eq_true_eq] at fits
  rcases fits with rfl | canonical
  · rw [Json.equal_null] at same
    rw [same]
    exact Json.printed_null
  · obtain ⟨string, rfl, _⟩ := isSha256_str canonical
    rw [Json.equal_str] at same
    rw [same]
    exact Json.printed_str string

theorem requireCommand_eq_ok {command : Json} {argv : List Json}
    (done : requireCommand command = .ok argv) : (Json.arr argv).Printed := by
  simp only [requireCommand, bind_eq_ok, require_eq_ok, exists_const] at done
  obtain ⟨⟨_, parts⟩, is⟩ := done
  cases is
  refine .arr fun part member => ?_
  have here := List.all_eq_true.mp parts part member
  cases part with
  | str string => exact Json.printed_str string
  | _ => cases here

/-- The outcome and the status of a mode are plain texts. -/
theorem modeOf_eq_ok {cycle : Json} {mode : Text × Text} (found : modeOf cycle = .ok mode) :
    ∃ name, (name, mode) ∈ tddModes := by
  unfold modeOf at found
  split at found
  · next found' is =>
      cases found
      obtain ⟨name, _, looked⟩ := Option.bind_eq_some_iff.mp is
      obtain ⟨first, last, is, _⟩ := List.lookup_eq_some_iff.mp looked
      exact ⟨name, by simp [is]⟩
  · cases found

/-- `record_baseline` -/
theorem stepped_of_baseline {cycle next : Json} {times : Text × Text × Text} {baseline : Baseline}
    (done : recordBaseline host times cycle baseline = .ok next) :
    ∃ before status events fields added,
      Stepped host cycle next before status events fields added := by
  simp only [recordBaseline, requireDigest, bind_eq_ok, require_eq_ok, exists_const] at done
  obtain ⟨_, valid, designed, mode, modeIs, outcome, _, _, _, implementation, environment, output,
    argv, command, is⟩ := done
  obtain ⟨events, sound⟩ := sound_of_status valid (Json.equal_str.mp designed)
  obtain ⟨name, member⟩ := modeOf_eq_ok modeIs
  have known : mode.2 ∈ tddStatuses ∧ mode.2 ≠ text "TDD_CYCLE_ABORTED" ∧
      (Json.str mode.1).Plain := by
    simp only [tddModes, List.mem_cons, Prod.ext_iff, List.not_mem_nil, or_false] at member
    rcases member with ⟨_, isOutcome, isStatus⟩ | ⟨_, isOutcome, isStatus⟩ |
      ⟨_, isOutcome, isStatus⟩ <;>
      rw [isOutcome, isStatus] <;> simp [tddStatuses]
  have distinct : ((text "status" :: text "at" ::
      (baseline.common cycle argv).map (·.1))).Nodup := by
    simp [Baseline.common]
  have common : cycle.Plain → ∀ pair ∈ baseline.common cycle argv,
      mergeSurrogates pair.1 = pair.1 ∧ pair.2.Printed := by
    intro plain
    simp only [Baseline.common, List.forall_mem_cons, mergeSurrogates_text, true_and,
      Json.printed_str, Json.printed_bool, List.not_mem_nil, false_imp_iff, implies_true, and_true]
    exact ⟨printed_of_isSha256 implementation, Json.printed_of_plain (plain.get _),
      Json.printed_of_plain (plain.get _), requireCommand_eq_ok command,
      printed_of_isSha256 environment, printed_of_isSha256 output⟩
  have frozen : ((text "status" :: text "at" :: [(text "test_contract_digest",
      cycle.get "test_contract_digest"), ("oracle_digest", cycle.get "oracle_digest")].map
        (·.1))).Nodup := by simp
  refine ⟨text "TEST_DESIGNED", mode.2, events, [("baseline_implementation_digest", baseline.observedImplementationDigest),
    ("frozen_test_contract_digest", cycle.get "test_contract_digest"),
    ("frozen_oracle_digest", cycle.get "oracle_digest")], [
    event "BASELINE_EXECUTED" times.1
      (("outcome", .str baseline.outcome) :: baseline.common cycle argv),
    event mode.2 times.2.1 (baseline.common cycle argv),
    event "TEST_CONTRACT_FROZEN" times.2.2
      [("test_contract_digest", cycle.get "test_contract_digest"),
        ("oracle_digest", cycle.get "oracle_digest")]], ?_⟩
  exact {
    sound := sound
    live := by simp
    is := (Except.ok.inj is).symm
    known := known.1
    reached := Or.inr (Or.inr ⟨mode.1, modeIs⟩)
    keys := by simp [stepFields]
    plain := by
      intro plain
      simp only [List.forall_mem_cons, List.not_mem_nil, false_imp_iff, implies_true, and_true]
      exact ⟨plain_of_isSha256 implementation, plain.get _, plain.get _⟩
    each := by
      simp only [List.forall_mem_cons, List.not_mem_nil, false_imp_iff, implies_true, and_true]
      refine ⟨⟨validateEvent_event ?_ (by simp [tddStatuses]), ?_⟩,
        ⟨validateEvent_event distinct known.1, ?_⟩,
        validateEvent_event frozen (by simp [tddStatuses]), ?_⟩
      · simp [Baseline.common]
      · rw [@get_event _ _ _ "outcome" (by simp [Baseline.common]) (.str baseline.outcome) (by simp),
          outcome]
        exact known.2.2
      · rw [get_event_of_absent (by simp [Baseline.common])]
        exact Json.plain_null
      · rw [get_event_of_absent (by simp)]
        exact Json.plain_null
    aborts := fun aborted => absurd aborted known.2.1
    printed := by
      intro plain _ _
      simp only [List.forall_mem_cons, List.not_mem_nil, false_imp_iff, implies_true, and_true]
      refine ⟨printed_event ?_, printed_event (common plain), printed_event ?_⟩
      · rw [List.forall_mem_cons]
        exact ⟨⟨mergeSurrogates_text _, Json.printed_str _⟩, common plain⟩
      · simp only [List.forall_mem_cons, mergeSurrogates_text, true_and, List.not_mem_nil,
          false_imp_iff, implies_true, and_true]
        exact ⟨Json.printed_of_plain (plain.get _), Json.printed_of_plain (plain.get _)⟩ }

/-- `record_green` -/
theorem stepped_of_green {cycle next : Json} {time : Text} {green : Green}
    (done : recordGreen host time cycle green = .ok next) :
    ∃ before status events fields added,
      Stepped host cycle next before status events fields added := by
  simp only [recordGreen, requireDigest, bind_eq_ok, require_eq_ok, exists_const] at done
  obtain ⟨_, valid, _, baseline, rfl, contract, oracle, done⟩ := done
  obtain ⟨before, isBaseline, beforeIs⟩ := inSet_eq_true.mp baseline
  obtain ⟨events, sound⟩ := sound_of_status valid beforeIs
  split at done
  · cases done
  · next epoch _ =>
      simp only [bind_eq_ok, require_eq_ok, exists_const] at done
      obtain ⟨_, _, _, _, _, _, implementation, diff, environment, output, argv, command, is⟩ := done
      have distinct : ((text "status" :: text "at" :: [(text "epoch", Json.int epoch),
          ("implementation_digest", green.currentImplementationDigest),
          ("diff_digest", green.diffDigest),
          ("test_contract_digest", green.currentTestContractDigest),
          ("oracle_digest", green.currentOracleDigest), ("command", .arr argv),
          ("environment_digest", green.environmentDigest),
          ("output_digest", green.outputDigest)].map (·.1))).Nodup := by simp
      refine ⟨before, text "GREEN_PROVEN", events, [("green_epoch", .int epoch),
        ("green_implementation_digest", green.currentImplementationDigest),
        ("green_diff_digest", green.diffDigest)], [event "GREEN_PROVEN" time
        [("epoch", .int epoch), ("implementation_digest", green.currentImplementationDigest),
          ("diff_digest", green.diffDigest),
          ("test_contract_digest", green.currentTestContractDigest),
          ("oracle_digest", green.currentOracleDigest), ("command", .arr argv),
          ("environment_digest", green.environmentDigest),
          ("output_digest", green.outputDigest)]], ?_⟩
      have nextIs := (Except.ok.inj is).symm
      have frozen {key : Text} (absent : ∀ field ∈ [(text "status", Json.str "GREEN_PROVEN"),
          ("green_epoch", .int epoch),
          ("green_implementation_digest", green.currentImplementationDigest),
          ("green_diff_digest", green.diffDigest)], field.1 ≠ key) (event : text "events" ≠ key)
          (digest : text "cycle_sha256" ≠ key) : next.get key = cycle.get key := by
        rw [nextIs]
        exact get_advanceCycle absent event digest
      exact {
        sound := sound
        live := by
          intro ended
          simp only [baselineStatuses, List.mem_cons, List.not_mem_nil, or_false] at isBaseline ended
          rcases isBaseline with rfl | rfl | rfl <;> simp at ended
        is := nextIs
        known := by simp [tddStatuses]
        reached := Or.inr (Or.inl (by simp))
        keys := by simp [stepFields]
        plain := by
          intro _
          simp only [List.forall_mem_cons, List.not_mem_nil, false_imp_iff, implies_true, and_true]
          exact ⟨Json.plain_int _, plain_of_isSha256 implementation, plain_of_isSha256 diff⟩
        each := by
          rw [List.forall_mem_singleton]
          refine ⟨validateEvent_event distinct (by simp [tddStatuses]), ?_⟩
          rw [get_event_of_absent (by simp)]
          exact Json.plain_null
        aborts := fun aborted => absurd aborted (by simp)
        printed := by
          intro _ contractFits oracleFits
          rw [frozen (by simp) (by simp) (by simp)] at contractFits oracleFits
          rw [List.forall_mem_singleton]
          refine printed_event ?_
          simp only [List.forall_mem_cons, mergeSurrogates_text, true_and, List.not_mem_nil,
            false_imp_iff, implies_true, and_true]
          exact ⟨Json.printed_int _, printed_of_isSha256 implementation, printed_of_isSha256 diff,
            printed_of_equal contract contractFits, printed_of_equal oracle oracleFits,
            requireCommand_eq_ok command, printed_of_isSha256 environment,
            printed_of_isSha256 output⟩ }

/-- `complete_tdd_cycle` -/
theorem stepped_of_complete {cycle next : Json} {time : Text}
    (done : completeTddCycle host time cycle = .ok next) :
    ∃ before status events fields added,
      Stepped host cycle next before status events fields added := by
  simp only [completeTddCycle, bind_eq_ok, require_eq_ok, exists_const] at done
  obtain ⟨_, valid, proven, epoch, found, is⟩ := done
  obtain ⟨events, sound⟩ := sound_of_status valid (Json.equal_str.mp proven)
  refine ⟨text "GREEN_PROVEN", text "TDD_CYCLE_COMPLETE", events, [],
    [event "TDD_CYCLE_COMPLETE" time [("epoch", epoch)]], ?_⟩
  exact {
    sound := sound
    live := by simp
    is := (Except.ok.inj is).symm
    known := by simp [tddStatuses]
    reached := Or.inr (Or.inl (by simp))
    keys := by simp
    plain := by simp
    each := by
      rw [List.forall_mem_singleton]
      refine ⟨validateEvent_event (by simp) (by simp [tddStatuses]), ?_⟩
      rw [get_event_of_absent (by simp)]
      exact Json.plain_null
    aborts := fun aborted => absurd aborted (by simp)
    printed := by
      intro plain _ _
      rw [List.forall_mem_singleton]
      refine printed_event ?_
      rw [List.forall_mem_singleton]
      exact ⟨mergeSurrogates_text _, Json.printed_of_plain (plain.get? (item_eq_ok.mp found))⟩ }

/-- `abort_tdd_cycle` -/
theorem stepped_of_abort {cycle next : Json} {time reason : Text}
    (done : abortTddCycle host time cycle reason = .ok next) :
    ∃ before status events fields added,
      Stepped host cycle next before status events fields added := by
  simp only [abortTddCycle, bind_eq_ok, require_eq_ok, exists_const] at done
  obtain ⟨_, valid, ended, notEnded, open_, _, is⟩ := done
  obtain ⟨before, events, sound⟩ := validateTddCycle_eq_ok.mp valid
  refine ⟨before, text "TDD_CYCLE_ABORTED", events, [],
    [event "TDD_CYCLE_ABORTED" time [("reason", .str (strip reason))]], ?_⟩
  exact {
    sound := sound
    live := by
      intro member
      rw [sound.statusIs, inSet, Except.ok.injEq] at notEnded
      subst notEnded
      exact open_ (decide_eq_true member)
    is := (Except.ok.inj is).symm
    known := by simp [tddStatuses]
    reached := Or.inl rfl
    keys := by simp
    plain := by simp
    each := by
      rw [List.forall_mem_singleton]
      refine ⟨validateEvent_event (by simp) (by simp [tddStatuses]), ?_⟩
      rw [get_event_of_absent (by simp)]
      exact Json.plain_null
    aborts := by
      intro _
      rw [List.forall_mem_singleton,
        @get_event _ _ _ "status" (by simp) (.str "TDD_CYCLE_ABORTED") (by simp)]
      simp
    printed := by
      intro _ _ _
      rw [List.forall_mem_singleton]
      refine printed_event ?_
      rw [List.forall_mem_singleton]
      exact ⟨mergeSurrogates_text _, Json.printed_str _⟩ }

/-- What a step does to a cycle, whichever call it is. -/
theorem CycleStep.stepped {cycle next : Json} (step : CycleStep host cycle next) :
    ∃ before status events fields added,
      Stepped host cycle next before status events fields added := by
  cases step with
  | baseline times baseline done => exact stepped_of_baseline done
  | green time green done => exact stepped_of_green done
  | complete time done => exact stepped_of_complete done
  | abort time reason done => exact stepped_of_abort done

/-! ## The cycle after a step -/

/-- The first event in which the baseline of a cycle was executed. -/
def baselineOf (cycle : Json) : Option Json :=
  ((cycle.get "events").arr?.getD []).find? fun event =>
    (event.get "status").equal (.str "BASELINE_EXECUTED")

namespace Stepped

variable {cycle next : Json} {before status : Text} {events added : List Json}
  {fields : List (Text × Json)}

theorem object (stepped : Stepped host cycle next before status events fields added) :
    next.obj?.isSome = true := by
  rw [stepped.is, advanceCycle, sealCycle, StateStore.isSome_reseal, addEvents, Json.isSome_set,
    object_of_foldl_set]
  exact stepped.sound.object

/-- The fields that no step changes. -/
theorem kept (stepped : Stepped host cycle next before status events fields added) {key : Text}
    (absent : key ∉ stepFields ++ [text "status", "events", "cycle_sha256"]) :
    next.get? key = cycle.get? key := by
  simp only [List.mem_append, List.mem_cons, List.not_mem_nil, or_false, not_or] at absent
  obtain ⟨other, status_, events_, digest⟩ := absent
  rw [stepped.is]
  refine get?_advanceCycle ?_ (Ne.symm events_) (Ne.symm digest)
  rw [List.forall_mem_cons]
  refine ⟨Ne.symm status_, fun field member same => ?_⟩
  rw [← same] at other
  exact other (stepped.keys field member)

theorem get_kept (stepped : Stepped host cycle next before status events fields added) {key : Text}
    (absent : key ∉ stepFields ++ [text "status", "events", "cycle_sha256"]) :
    next.get key = cycle.get key := by
  rw [Json.get, Json.getD, stepped.kept absent, Json.get, Json.getD]

theorem statusIs (stepped : Stepped host cycle next before status events fields added) :
    next.get "status" = .str status := by
  have others : ∀ field ∈ fields, field.1 ≠ text "status" := by
    intro field member same
    have inside := stepped.keys field member
    rw [same] at inside
    simp [stepFields] at inside
  rw [stepped.is, advanceCycle, sealCycle, reseal, Json.get_set_of_ne _ (by simp), addEvents,
    Json.get_set_of_ne _ (by simp), List.foldl_cons, Json.get, Json.getD, get?_foldl_set others,
    Json.get?_set stepped.sound.object, if_pos rfl]
  rfl

theorem eventsAre (stepped : Stepped host cycle next before status events fields added) :
    next.get? "events" = some (.arr (events ++ added)) := by
  rw [stepped.is]
  refine get?_advanceCycle_events stepped.sound.object stepped.sound.eventsAre ?_
  rw [List.forall_mem_cons]
  refine ⟨by simp, fun field member same => ?_⟩
  have inside := stepped.keys field member
  rw [same] at inside
  simp [stepFields] at inside

/-- The cycle after a step is valid. -/
theorem next_sound (stepped : Stepped host cycle next before status events fields added) :
    Sound host next status (events ++ added) := by
  have sound := stepped.sound
  have same {key : String} (absent : text key ∉ stepFields ++ [text "status", "events", "cycle_sha256"]) :
      next.get key = cycle.get key := stepped.get_kept absent
  obtain ⟨first, later, rfl, designed⟩ := sound.designed
  exact {
    object := stepped.object
    schema := by
      rw [same (by simp [stepFields])]
      exact sound.schema
    owner := by
      rw [same (by simp [stepFields])]
      exact sound.owner
    named := by
      rw [same (by simp [stepFields])]
      exact sound.named
    mode := by
      rw [same (by simp [stepFields])]
      exact sound.mode
    known := stepped.known
    statusIs := stepped.statusIs
    contract := by
      rw [same (by simp [stepFields])]
      exact sound.contract
    oracle := by
      rw [same (by simp [stepFields])]
      exact sound.oracle
    eventsAre := by rw [StateStore.get_of_get? stepped.eventsAre, Json.arr?]
    designed := ⟨first, later ++ added, rfl, designed⟩
    each := by
      intro event member
      rcases List.mem_append.mp member with old | new
      · exact sound.each event old
      · exact (stepped.each event new).1
    sealed_ := by
      rw [stepped.is, advanceCycle, sealCycle, reseal, StateStore.erase_set_self]
      refine Json.get_set_self ?_
      rw [addEvents, Json.isSome_set, object_of_foldl_set]
      exact sound.object }

theorem valid (stepped : Stepped host cycle next before status events fields added) :
    validateTddCycle host next = .ok () :=
  validateTddCycle_eq_ok.mpr ⟨status, _, stepped.next_sound⟩

/-- What is set beside the events and the digest. -/
theorem parts (stepped : Stepped host cycle next before status events fields added) :
    ∀ field ∈ (text "status", Json.str status) :: fields,
      mergeSurrogates field.1 = field.1 ∧ (cycle.Plain → field.2.Plain) := by
  rw [List.forall_mem_cons]
  refine ⟨⟨mergeSurrogates_text _, fun _ => ?_⟩, fun field member =>
    ⟨?_, fun plain => stepped.plain plain field member⟩⟩
  · exact Json.plain_str.mpr (plain_status stepped.known)
  · have inside := stepped.keys field member
    simp only [stepFields, List.mem_cons, List.not_mem_nil, or_false] at inside
    rcases inside with is | is | is | is | is | is <;> rw [is] <;> exact mergeSurrogates_text _

/-- Every field of the next cycle but its events is read back as it is. -/
theorem plain_get (stepped : Stepped host cycle next before status events fields added)
    (plain : cycle.Plain) {key : Text} (differs : key ≠ text "events") : (next.get key).Plain := by
  by_cases digest : key = text "cycle_sha256"
  · subst digest
    rw [stepped.next_sound.sealed_]
    exact Host.plain_digest _
  · rw [stepped.is, advanceCycle, sealCycle, reseal, Json.get_set_of_ne _ (Ne.symm digest), addEvents,
      Json.get_set_of_ne _ (Ne.symm differs)]
    refine (List.foldlRecOn (motive := fun value : Json => value.obj?.isSome = true ∧ (value.get key).Plain)
      _ _ ⟨stepped.sound.object, plain.get key⟩ ?_).2
    rintro value ⟨object, here⟩ field member
    refine ⟨Json.isSome_set.trans object, ?_⟩
    by_cases same : field.1 = key
    · rw [← same, Json.get_set_self object]
      exact (stepped.parts field member).2 plain
    · rw [Json.get_set_of_ne _ same]
      exact here

/-- The keys of the next cycle stay in a round trip. -/
theorem keyed (stepped : Stepped host cycle next before status events fields added)
    (plain : cycle.Plain) : next.Keyed := by
  have set_ := List.foldlRecOn (motive := Json.Keyed) ((text "status", Json.str status) :: fields)
    (fun value field => value.set field.1 field.2) (Json.keyed_of_plain plain)
    fun _ here field member => here.set (stepped.parts field member).1
  rw [stepped.is, advanceCycle, sealCycle, reseal, addEvents]
  exact (set_.set (mergeSurrogates_text _)).set (mergeSurrogates_text _)

theorem get_normalize (stepped : Stepped host cycle next before status events fields added)
    (plain : cycle.Plain) {key : Text} (differs : key ≠ text "events") :
    next.normalize.get key = next.get key :=
  ((stepped.keyed plain).get_normalize key).trans (stepped.plain_get plain differs)

/-- The events of the next cycle after a round trip. -/
theorem events_normalize (stepped : Stepped host cycle next before status events fields added)
    (plain : cycle.Plain) :
    next.normalize.get? "events" = some (.arr (events ++ added.map Json.normalize)) := by
  have old : (Json.arr events).Plain := by
    have found := Json.arr?_eq_some.mp stepped.sound.eventsAre
    rw [← found]
    exact plain.get _
  have kept : events.map Json.normalize = events :=
    (List.map_congr_left old.item).trans (List.map_id' events)
  rw [(stepped.keyed plain).get?_normalize, stepped.eventsAre, Option.map_some, Json.normalize,
    Json.normalizeItems_eq_map, List.map_append, kept]

/-- Nothing in the next cycle is printed otherwise after a round trip, where its frozen digests are
digests. -/
theorem next_printed (stepped : Stepped host cycle next before status events fields added)
    (plain : cycle.Plain)
    (contract : TaskSchema.nullOr (next.get "frozen_test_contract_digest") isSha256 = true)
    (oracle : TaskSchema.nullOr (next.get "frozen_oracle_digest") isSha256 = true) :
    next.Printed := by
  have printed := List.foldlRecOn (motive := Json.Printed) ((text "status", Json.str status) :: fields)
    (fun value field => value.set field.1 field.2) (Json.printed_of_plain plain)
    fun _ here field member => here.set (stepped.parts field member).1
      (Json.printed_of_plain ((stepped.parts field member).2 plain))
  have old : (Json.arr ((((((text "status", Json.str status) :: fields).foldl
      (fun cycle field => cycle.set field.1 field.2) cycle).get "events").arr?.getD []) ++
        added)).Printed := by
    refine .arr fun event member => ?_
    rcases List.mem_append.mp member with earlier | later
    · cases is : (((text "status", Json.str status) :: fields).foldl
          (fun cycle field => cycle.set field.1 field.2) cycle).get "events" with
      | arr items =>
          rw [is] at earlier
          have whole := printed.get "events"
          rw [is] at whole
          exact whole.item event earlier
      | _ =>
          rw [is] at earlier
          simp [Json.arr?] at earlier
    · exact stepped.printed plain contract oracle event later
  rw [stepped.is, advanceCycle, sealCycle, reseal, addEvents]
  exact (printed.set (mergeSurrogates_text _) old).set (mergeSurrogates_text _) (Json.printed_str _)

/-- The next cycle is valid after a round trip, where its frozen digests are digests. -/
theorem valid_normalize (stepped : Stepped host cycle next before status events fields added)
    (plain : cycle.Plain)
    (contract : TaskSchema.nullOr (next.get "frozen_test_contract_digest") isSha256 = true)
    (oracle : TaskSchema.nullOr (next.get "frozen_oracle_digest") isSha256 = true) :
    validateTddCycle host next.normalize = .ok () := by
  have sound := stepped.next_sound
  have printed := stepped.next_printed plain contract oracle
  have same {key : String} (differs : key ≠ "events") : next.normalize.get key = next.get key :=
    stepped.get_normalize plain (by simpa using differs)
  obtain ⟨first, later, is, designed⟩ := stepped.sound.designed
  subst is
  refine validateTddCycle_eq_ok.mpr ⟨status, first :: later ++ added.map Json.normalize, ?_⟩
  exact {
    object := StateStore.isSome_normalize.trans sound.object
    schema := by
      rw [same (by decide)]
      exact sound.schema
    owner := by
      rw [same (by decide)]
      exact sound.owner
    named := by
      rw [same (by decide)]
      exact sound.named
    mode := by
      rw [same (by decide)]
      exact sound.mode
    known := sound.known
    statusIs := by
      rw [same (by decide)]
      exact sound.statusIs
    contract := by
      rw [same (by decide)]
      exact sound.contract
    oracle := by
      rw [same (by decide)]
      exact sound.oracle
    eventsAre := by rw [StateStore.get_of_get? (stepped.events_normalize plain), Json.arr?]
    designed := ⟨first, _, rfl, designed⟩
    each := by
      intro event member
      rcases List.mem_append.mp member with old | new
      · exact stepped.sound.each event old
      · obtain ⟨given, inside, rfl⟩ := List.mem_map.mp new
        obtain ⟨passes, _⟩ := stepped.each given inside
        obtain ⟨fields, is⟩ := Option.isSome_iff_exists.mp (isSome_of_validateEvent passes)
        rw [Json.obj?_eq_some] at is
        subst is
        obtain ⟨name, known, nameIs⟩ := inSet_eq_true.mp passes
        have keyed := (stepped.printed plain contract oracle _ inside).keyed
        rw [keyed.normalize_obj]
        refine inSet_eq_true.mpr ⟨name, known, ?_⟩
        rw [← keyed.normalize_obj, keyed.get_normalize, nameIs]
        exact congrArg Json.str (plain_status known)
    sealed_ := by
      have printedAlike : host.canonical (next.normalize.erase "cycle_sha256") =
          host.canonical (next.erase "cycle_sha256") := by
        rw [printed.keyed.erase_normalize]
        exact congrArg encode ((printed.erase _).sameText_normalize .compact 0)
      rw [same (by decide), sound.sealed_, Host.digest, Host.digest, printedAlike] }

/-- The outcome of the first baseline of the next cycle is read back as it is. -/
theorem outcome_plain (stepped : Stepped host cycle next before status events fields added)
    (plain : cycle.Plain) {event : Json} (first : baselineOf next = some event) :
    (event.get "outcome").Plain := by
  rw [baselineOf, StateStore.get_of_get? stepped.eventsAre] at first
  rcases List.mem_append.mp (List.mem_of_find?_eq_some first) with old | new
  · have found := Json.arr?_eq_some.mp stepped.sound.eventsAre
    have whole := plain.get "events"
    rw [found] at whole
    exact (whole.item event old).get _
  · exact (stepped.each event new).2

end Stepped

end Assurance

end CarbonLab.Aegis
