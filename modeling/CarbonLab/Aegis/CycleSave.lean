import CarbonLab.Aegis.CycleRecord
import Mathlib.Data.List.Find

/-!
# The save of a recorded cycle

A task in which a cycle took a step was edited within its epoch.  What its save asks for is
told from the task and from the cycle.
-/

namespace CarbonLab.Aegis

namespace StateStore

open StateMachine Assurance

variable {host : Host} {id : Text}

theorem every_congr {α : Type} {check other : α → Except Raised Bool} {items : List α}
    (same : ∀ entry ∈ items, check entry = other entry) : every check items = every other items := by
  induction items with
  | nil => rfl
  | cons first items ih =>
      rw [List.forall_mem_cons] at same
      rw [every, every, same.1, ih same.2]

theorem status_of_validateEvent {event : Json} (passes : validateEvent event = .ok true) :
    ∃ name ∈ tddStatuses, event.get "status" = .str name := by
  cases event with
  | obj fields => exact inSet_eq_true.mp passes
  | _ => cases passes

/-- A task with one cycle, whose digests are the candidate's where the cycle is proven. -/
def underCycle (task cycle : Json) (digest : Text) : Json :=
  let single := Json.obj (Fields.ofPairs
    [("cycles", .arr [cycle]), ("active_cycle_id", cycle.get "cycle_id")])
  let summarized := (task.set "tdd" single).set "evidence_set_digest" (.str digest)
  if Proven cycle then
    (summarized.set "implementation_digest" (cycle.get "green_implementation_digest")).set
      "diff_digest" (cycle.get "green_diff_digest")
  else summarized

/-- A cycle of a task that takes a step. -/
structure Advancing (host : Host) (id : Text) (task tdd cycle next : Json) (earlier later : List Json)
    (before status expected observed : Text) (events : List Json) (fields : List (Text × Json))
    (added : List Json) : Prop where
  plain : task.Plain
  object : task.obj?.isSome = true
  there : task.get? "tdd" = some tdd
  contract : Contract host id tdd (earlier ++ cycle :: later)
  stepped : Stepped host cycle next before status events fields added
  mode : modeOf next = .ok (expected, observed)

/-- The fields of a task that a step of a cycle changes. -/
def recordedFields : List Text := ["tdd", "implementation_digest", "diff_digest"]

namespace Advancing

variable {task tdd cycle next : Json} {earlier later events added : List Json}
  {before status expected observed : Text} {fields : List (Text × Json)}

section

variable (advancing : Advancing host id task tdd cycle next earlier later before status expected
  observed events fields added)

include advancing

theorem tddPlain : tdd.Plain := advancing.plain.get? advancing.there

theorem cyclesPlain : ∀ entry ∈ earlier ++ cycle :: later, entry.Plain :=
  (advancing.tddPlain.get? advancing.contract.cyclesAre).item

theorem cyclePlain : cycle.Plain := advancing.cyclesPlain cycle (by simp)

theorem nextPlain {key : Text} (differs : key ≠ text "events") : (next.get key).Plain :=
  advancing.stepped.plain_get advancing.cyclePlain differs

theorem storedPlain : ∀ entry ∈ earlier ++ next.normalize :: later, entry.Plain := by
  intro entry member
  rcases List.mem_append.mp member with old | old
  · exact advancing.cyclesPlain entry (List.mem_append_left _ old)
  · rcases List.mem_cons.mp old with rfl | old
    · exact Json.plain_normalize _
    · exact advancing.cyclesPlain entry (List.mem_append_right _ (List.mem_cons_of_mem _ old))

theorem sameId : next.normalize.get "cycle_id" = cycle.get "cycle_id" := by
  rw [advancing.stepped.get_normalize advancing.cyclePlain (by simp),
    advancing.stepped.get_kept (by simp [stepFields])]

/-! ### The task that is read back -/

theorem keyed (cycles : List Json) : (recordedTask host task tdd next cycles expected).Keyed := by
  have summarized : (task.set "tdd" (recordedTdd host tdd next cycles expected)).Keyed :=
    (Json.keyed_of_plain advancing.plain).set (mergeSurrogates_text _)
  rw [recordedTask]
  split
  · exact (summarized.set (mergeSurrogates_text _)).set (mergeSurrogates_text _)
  · exact summarized

theorem kept (cycles : List Json) {key : Text} (absent : key ∉ recordedFields) :
    (recordedTask host task tdd next cycles expected).normalize.get? key = task.get? key := by
  simp only [recordedFields, List.mem_cons, List.not_mem_nil, or_false, not_or] at absent
  obtain ⟨other, implementation, diff⟩ := absent
  have same : (recordedTask host task tdd next cycles expected).get? key = task.get? key := by
    rw [recordedTask]
    split
    · rw [Json.get?_set_of_ne _ (Ne.symm diff), Json.get?_set_of_ne _ (Ne.symm implementation),
        Json.get?_set_of_ne _ (Ne.symm other)]
    · exact Json.get?_set_of_ne _ (Ne.symm other)
  rw [(advancing.keyed cycles).get?_normalize, same]
  cases found : task.get? key with
  | none => rfl
  | some value => exact congrArg some (advancing.plain.get? found)

theorem get?_tdd (cycles : List Json) :
    (recordedTask host task tdd next cycles expected).normalize.get? "tdd" =
      some (recordedTdd host tdd next cycles expected).normalize := by
  have same : (recordedTask host task tdd next cycles expected).get? "tdd" =
      some (recordedTdd host tdd next cycles expected) := by
    rw [recordedTask]
    split
    · rw [Json.get?_set_of_ne _ (by simp), Json.get?_set_of_ne _ (by simp),
        Json.get?_set advancing.object, if_pos rfl]
    · rw [Json.get?_set advancing.object, if_pos rfl]
  rw [(advancing.keyed cycles).get?_normalize, same, Option.map_some]

/-- The digests of a task in which a cycle is recorded, as those of the task with that cycle. -/
theorem get_digest (cycles : List Json) (digest : Text) {field : Text}
    (member : field = text "implementation_digest" ∨ field = text "diff_digest") :
    (recordedTask host task tdd next cycles expected).normalize.get field =
      (underCycle task next digest).get field := by
  rw [(advancing.keyed cycles).get_normalize, recordedTask, underCycle]
  have set_ {value : Json} : (task.set "tdd" value).obj?.isSome = true :=
    Json.isSome_set.trans advancing.object
  split
  · rcases member with rfl | rfl
    · rw [Json.get_set_of_ne _ (by simp), Json.get_set_self set_, Json.get_set_of_ne _ (by simp),
        Json.get_set_self (Json.isSome_set.trans set_)]
      exact advancing.nextPlain (by simp)
    · rw [Json.get_set_self (Json.isSome_set.trans set_),
        Json.get_set_self (Json.isSome_set.trans (Json.isSome_set.trans set_))]
      exact advancing.nextPlain (by simp)
  · rcases member with rfl | rfl
    · rw [Json.get_set_of_ne _ (by simp), Json.get_set_of_ne _ (by simp),
        Json.get_set_of_ne _ (by simp)]
      exact advancing.plain.get _
    · rw [Json.get_set_of_ne _ (by simp), Json.get_set_of_ne _ (by simp),
        Json.get_set_of_ne _ (by simp)]
      exact advancing.plain.get _

end

/-! ### The save -/

section

variable {from_ : Stage} {revision epoch : ℤ} {gates risks moves : List Json}

/-- A cycle is recorded within an epoch. -/
theorem within (advancing : Advancing host id task tdd cycle next earlier later before status expected
      observed events fields added)
    (situation : Situation host id task from_ revision epoch gates risks moves) (cycles : List Json) :
    Within task (recordedTask host task tdd next cycles expected).normalize from_ (moves ++ []) := by
  obtain ⟨decisions, handoffs, evidence, listed⟩ := situation.listed
  have same {key : Text} (absent : key ∉ recordedFields) := advancing.kept cycles absent
  have given : (recordedTask host task tdd next cycles expected).obj?.isSome = true := by
    rw [recordedTask]
    split
    · exact Json.isSome_set.trans (Json.isSome_set.trans (Json.isSome_set.trans advancing.object))
    · exact Json.isSome_set.trans advancing.object
  exact {
    object := isSome_normalize.trans given
    kept := by
      intro key spared
      refine same fun inside => spared ?_
      simp only [recordedFields, List.mem_cons, List.not_mem_nil, or_false] at inside
      rcases inside with rfl | rfl | rfl <;> simp [withinFields]
    state := (same (by simp [recordedFields])).trans situation.stateIs
    previous := by
      rw [same (by simp [recordedFields])]
      exact situation.previous
    audited := Or.inl (same (by simp [recordedFields]))
    moves_ := by
      rw [List.append_nil, same (by simp [recordedFields])]
      exact listed.movesIs }

/-- The cycle after a step continues the cycle before it, when that continues itself. -/
theorem change_iff (advancing : Advancing host id task tdd cycle next earlier later before status
      expected observed events fields added) :
    validateCycleChange cycle next.normalize = .ok () ↔ validateCycleChange cycle cycle = .ok () := by
  have stepped := advancing.stepped
  have fields_ : every (fun field => do return (← fetch next.normalize field).equal (cycle.get field))
      immutableCycleFields =
      every (fun field => do return (← fetch cycle field).equal (cycle.get field))
        immutableCycleFields := by
    have apart : ∀ field ∈ immutableCycleFields,
        field ∉ stepFields ++ [text "status", "events", "cycle_sha256"] ∧ field ≠ text "events" := by
      simp [immutableCycleFields, stepFields]
    refine every_congr fun field member => ?_
    obtain ⟨absent, differs⟩ := apart field member
    rw [fetch_eq_ok.mpr ⟨isSome_normalize.trans stepped.object,
        stepped.get_normalize advancing.cyclePlain differs⟩,
      fetch_eq_ok.mpr ⟨stepped.sound.object, rfl⟩, stepped.get_kept absent]
  have eventsAre : cycle.get "events" = .arr events := Json.arr?_eq_some.mp stepped.sound.eventsAre
  have events_ : listD cycle "events" = .arr events := by
    have found := eventsAre
    rw [Json.get, Json.getD] at found
    rw [listD, Json.getD]
    cases is : cycle.get? "events" with
    | none =>
        rw [is] at found
        cases found
    | some value =>
        rw [is] at found
        exact found
  have nextEvents : listD next.normalize "events" = .arr (events ++ added.map Json.normalize) := by
    rw [listD, Json.getD, stepped.events_normalize advancing.cyclePlain, Option.getD_some]
  have prefix_ : extends_ events (.arr (events ++ added.map Json.normalize)) =
      extends_ events (.arr events) := by
    rw [extends_, extends_, List.take_left, List.take_length]
  have ended : inSet (cycle.get "status") ["TDD_CYCLE_ABORTED", "TDD_CYCLE_COMPLETE"] =
      .ok false := by
    rw [stepped.sound.statusIs]
    exact congrArg Except.ok (decide_eq_false stepped.live)
  simp only [validateCycleChange, fields_, events_, nextEvents, Json.arr?, Option.getD_some, prefix_,
    ended, ok_bind, Bool.false_eq_true, false_imp_iff]

end

theorem get?_underCycle {digest : Text} {key : Text} (absent : key ∉ recordedFields)
    (set_ : key ≠ text "evidence_set_digest") : (underCycle task next digest).get? key = task.get? key := by
  simp only [recordedFields, List.mem_cons, List.not_mem_nil, or_false, not_or] at absent
  obtain ⟨other, implementation, diff⟩ := absent
  rw [underCycle]
  split
  · rw [Json.get?_set_of_ne _ (Ne.symm diff), Json.get?_set_of_ne _ (Ne.symm implementation),
      Json.get?_set_of_ne _ (Ne.symm set_), Json.get?_set_of_ne _ (Ne.symm other)]
  · rw [Json.get?_set_of_ne _ (Ne.symm set_), Json.get?_set_of_ne _ (Ne.symm other)]

theorem get_underCycle {digest : Text} {key : Text} (absent : key ∉ recordedFields)
    (set_ : key ≠ text "evidence_set_digest") : (underCycle task next digest).get key = task.get key := by
  rw [Json.get, Json.getD, get?_underCycle absent set_, Json.get, Json.getD]

theorem get_underCycle_evidence (object : task.obj?.isSome = true) {digest : Text} :
    (underCycle task next digest).get "evidence_set_digest" = .str digest := by
  rw [underCycle]
  split
  · rw [Json.get_set_of_ne _ (by simp), Json.get_set_of_ne _ (by simp),
      Json.get_set_self (Json.isSome_set.trans object)]
  · rw [Json.get_set_self (Json.isSome_set.trans object)]

/-! ### The current cycle -/

theorem current_underCycle (object : task.obj?.isSome = true) {name : Text}
    (named : next.get "cycle_id" = .str name) (cycleObject : next.obj?.isSome = true) (digest : Text) :
    currentTddCycle (underCycle task next digest) = some next := by
  have tddIs : (underCycle task next digest).get "tdd" = .obj (Fields.ofPairs
      [("cycles", .arr [next]), ("active_cycle_id", next.get "cycle_id")]) := by
    rw [underCycle]
    split
    · rw [Json.get_set_of_ne _ (by simp), Json.get_set_of_ne _ (by simp),
        Json.get_set_of_ne _ (by simp), Json.get_set_self object]
    · rw [Json.get_set_of_ne _ (by simp), Json.get_set_self object]
  have active : (Json.obj (Fields.ofPairs
      [("cycles", .arr [next]), ("active_cycle_id", next.get "cycle_id")])).get "active_cycle_id" =
      .str name := by
    rw [named]
    exact get_of_get? (Fields.get?_ofPairs (by simp) (by simp))
  have cycles : (Json.obj (Fields.ofPairs
      [("cycles", .arr [next]), ("active_cycle_id", next.get "cycle_id")])).get "cycles" =
      .arr [next] := get_of_get? (Fields.get?_ofPairs (by simp) (by simp))
  simp only [currentTddCycle, tddIs, active, cycles, Json.str?, Json.arr?]
  rw [List.find?_cons, cycleObject, named, Json.equal_str.mpr rfl]
  rfl

section

variable (advancing : Advancing host id task tdd cycle next earlier later before status expected
  observed events fields added)

include advancing

theorem named : ∃ name, next.get "cycle_id" = .str name := by
  obtain ⟨name, is, _⟩ := isId_eq advancing.stepped.next_sound.named
  exact ⟨name, is⟩

/-- A field of the summary that is read back as it is. -/
theorem summary {cycles : List Json} {key : Text} {value : Json}
    (member : (key, value) ∈ tddFields host next (baselineOf next) expected)
    (valuePlain : value.Plain) :
    (recordedTdd host tdd next cycles expected).normalize.get key = value :=
  get_recordedTdd advancing.tddPlain advancing.contract.object member valuePlain

theorem cyclesAre : (recordedTdd host tdd next (earlier ++ next.normalize :: later)
    expected).normalize.get? "cycles" = some (.arr (earlier ++ next.normalize :: later)) :=
  get?_recordedTdd_normalize advancing.tddPlain advancing.contract.object advancing.storedPlain

/-- The cycle that took the step is the current one. -/
theorem current {value : Json} (is : value.get "tdd" = (recordedTdd host tdd next
    (earlier ++ next.normalize :: later) expected).normalize) :
    currentTddCycle value = some next.normalize := by
  obtain ⟨name, named⟩ := advancing.named
  have active : (recordedTdd host tdd next (earlier ++ next.normalize :: later)
      expected).normalize.get "active_cycle_id" = .str name := by
    rw [← named]
    exact advancing.summary (by simp [tddFields]) (advancing.nextPlain (by simp))
  have same := advancing.sameId
  rw [advancing.stepped.get_normalize advancing.cyclePlain (by simp), named] at same
  have absent : earlier.find? (fun entry => entry.obj?.isSome &&
      (entry.get "cycle_id").equal (.str name)) = none := by
    rw [List.find?_eq_none]
    intro entry member
    rw [same, apart_of_contract advancing.contract entry member, Bool.and_false]
    exact Bool.false_ne_true
  simp only [currentTddCycle, is, active, get_of_get? advancing.cyclesAre, Json.str?, Json.arr?]
  rw [List.find?_append, absent, Option.none_or, List.find?_cons, isSome_normalize,
    advancing.stepped.object, advancing.sameId, ← same, Json.equal_str.mpr rfl]
  rfl

/-- The first baseline of the cycle that is stored. -/
theorem baselineOf_normalize
    (contract : TaskSchema.nullOr (next.get "frozen_test_contract_digest") isSha256 = true)
    (oracle : TaskSchema.nullOr (next.get "frozen_oracle_digest") isSha256 = true) :
    baselineOf next.normalize = (baselineOf next).map Json.normalize := by
  have stepped := advancing.stepped
  have stored := get_of_get? (stepped.events_normalize advancing.cyclePlain)
  have given := get_of_get? stepped.eventsAre
  have oldPlain : ∀ event ∈ events, event.Plain := by
    have whole := advancing.cyclePlain.get "events"
    rw [Json.arr?_eq_some.mp stepped.sound.eventsAre] at whole
    exact whole.item
  have kept : events.map Json.normalize = events :=
    (List.map_congr_left oldPlain).trans (List.map_id' events)
  have told : ∀ event ∈ events ++ added,
      event.normalize.get "status" = event.get "status" := by
    intro event member
    rcases List.mem_append.mp member with old | new
    · rw [oldPlain event old]
    · obtain ⟨name, known, is⟩ := status_of_validateEvent (stepped.each event new).1
      rw [(stepped.printed advancing.cyclePlain contract oracle event new).keyed.get_normalize, is]
      exact congrArg Json.str (plain_status known)
  have find_ : ∀ {items : List Json}, (∀ event ∈ items,
      event.normalize.get "status" = event.get "status") →
      (items.map Json.normalize).find? (fun event => (event.get "status").equal
        (.str "BASELINE_EXECUTED")) =
      (items.find? fun event => (event.get "status").equal (.str "BASELINE_EXECUTED")).map
        Json.normalize := by
    intro items same
    rw [List.find?_map]
    refine congrArg _ (List.find?_congr fun event member => ?_)
    rw [Function.comp_apply, same event member]
  rw [baselineOf, baselineOf, stored, given, Json.arr?, Json.arr?, Option.getD_some, Option.getD_some,
    ← find_ told, List.map_append, kept]

/-- The outcome of the first baseline is the same before and after a round trip. -/
theorem outcome_normalize
    (contract : TaskSchema.nullOr (next.get "frozen_test_contract_digest") isSha256 = true)
    (oracle : TaskSchema.nullOr (next.get "frozen_oracle_digest") isSha256 = true) {event : Json}
    (first : baselineOf next = some event) :
    event.normalize.get "outcome" = event.get "outcome" := by
  have stepped := advancing.stepped
  have printed := (stepped.next_printed advancing.cyclePlain contract oracle).get "events"
  have outcome := stepped.outcome_plain advancing.cyclePlain first
  rw [get_of_get? stepped.eventsAre] at printed
  rw [baselineOf, get_of_get? stepped.eventsAre] at first
  rw [(printed.item event (List.mem_of_find?_eq_some first)).keyed.get_normalize]
  exact outcome

/-- A task with the record of the cycle is summed up by it. -/
theorem summarizes (fits : Fits next) {stored : Json} (is : stored.get? "tdd" = some (recordedTdd host tdd
    next (earlier ++ next.normalize :: later) expected).normalize) :
    Summarizes stored next.normalize := by
  have stepped := advancing.stepped
  have baseline := advancing.baselineOf_normalize fits.contract fits.oracle
  have same {key : Text} (differs : key ≠ text "events") :
      next.normalize.get key = next.get key :=
    stepped.get_normalize advancing.cyclePlain differs
  have copied (key source : Text)
      (member : (key, next.get source) ∈ tddFields host next (baselineOf next) expected)
      (differs : source ≠ text "events") : (stored.get "tdd").get key = next.normalize.get source := by
    rw [get_of_get? is, advancing.summary member (advancing.nextPlain differs), same differs]
  exact {
    stored := by
      rw [cyclesOf, listD, Json.getD, Json.getD, is, Option.getD_some, advancing.cyclesAre]
      exact List.mem_append_right _ List.mem_cons_self
    current := advancing.current (get_of_get? is)
    mode := copied _ _ (by simp [tddFields]) (by simp)
    executed := by
      have found := @summary host id task tdd cycle next earlier later events added before status
        expected observed fields advancing (earlier ++ next.normalize :: later) "baseline_executed" _
        (by simp [tddFields]; rfl) (Json.plain_bool _)
      rw [get_of_get? is, found, baseline, Option.isSome_map, same (by simp)]
    outcome := by
      have found := @summary host id task tdd cycle next earlier later events added before status
        expected observed fields advancing (earlier ++ next.normalize :: later) "baseline_outcome" _
        (by simp [tddFields]) (plain_outcome stepped advancing.cyclePlain)
      rw [get_of_get? is, found, baseline]
      cases first : baselineOf next with
      | none => rfl
      | some event => exact (advancing.outcome_normalize fits.contract fits.oracle first).symm
    contract := copied _ _ (by simp [tddFields]) (by simp)
    oracle := copied _ _ (by simp [tddFields]) (by simp)
    green := copied _ _ (by simp [tddFields]) (by simp)
    active := copied _ _ (by simp [tddFields]) (by simp) }

end

section

variable {from_ : Stage} {revision epoch : ℤ} {gates risks moves moved moved' records : List Json}
  {migrated updated : Json} {time : Text}

/-- The receipts of a task tell no difference between its edit and the task with its one cycle. -/
theorem alike (advancing : Advancing host id task tdd cycle next earlier later before status expected
      observed events fields added)
    (pair : Edited host task (recordedTask host task tdd next (earlier ++ next.normalize :: later)
      expected).normalize from_ moves moved moved' migrated updated)
    (tddIs : updated.get? "tdd" = some (recordedTdd host tdd next
      (earlier ++ next.normalize :: later) expected).normalize) (digest : Text) :
    Alike (updated.set "evidence_set_digest" (.str digest)) (underCycle task next digest) := by
  have other {key : Text} (set_ : text "evidence_set_digest" ≠ key) (spared : key ∉ withinFields)
      (plain : key ∉ migratedFields host) :
      (updated.set "evidence_set_digest" (.str digest)).get? key =
        (underCycle task next digest).get? key := by
    rw [Json.get?_set_of_ne _ set_, pair.kept spared plain, get?_underCycle _ (Ne.symm set_)]
    intro inside
    simp only [recordedFields, List.mem_cons, List.not_mem_nil, or_false] at inside
    rcases inside with rfl | rfl | rfl <;> simp [withinFields] at spared
  have gets {key : Text} (set_ : text "evidence_set_digest" ≠ key) (spared : key ∉ withinFields)
      (plain : key ∉ migratedFields host) :
      (updated.set "evidence_set_digest" (.str digest)).get key =
        (underCycle task next digest).get key := by
    rw [Json.get, Json.getD, other set_ spared plain, Json.get, Json.getD]
  have digests {key : Text} (member : key = text "implementation_digest" ∨ key = text "diff_digest") :
      (updated.set "evidence_set_digest" (.str digest)).get key =
        (underCycle task next digest).get key := by
    have facts : (key, Json.null) ∈ migrationDefaults host ∧ key ≠ text "tdd" ∧
        text "evidence_set_digest" ≠ key := by
      rcases member with rfl | rfl <;> simp [migrationDefaults]
    rw [Json.get_set_of_ne _ facts.2.2, get_of_get? (pair.after.defaults _ facts.1 facts.2.1),
      ← Json.get, advancing.get_digest _ digest member]
  obtain ⟨name, named⟩ := advancing.named
  refine ⟨⟨?_, ?_, ?_⟩, ?_⟩
  · simp only [List.forall_mem_cons]
    refine ⟨gets (by simp) (by simp [withinFields]) (by simp [migratedFields, migrationDefaults]),
      gets (by simp) (by simp [withinFields]) (by simp [migratedFields, migrationDefaults]),
      digests (Or.inl rfl), digests (Or.inr rfl), ?_, by simp⟩
    rw [Json.get_set_self pair.after.object, get_underCycle_evidence advancing.object]
  · exact other (by simp) (by simp [withinFields]) (by simp [migratedFields, migrationDefaults])
  · have left := @current host id task tdd cycle next earlier later events added before status
      expected observed fields advancing (updated.set "evidence_set_digest" (.str digest)) (by
        rw [Json.get_set_of_ne _ (by simp), get_of_get? tddIs])
    rw [left, current_underCycle advancing.object named advancing.stepped.object, Option.map_some,
      Option.map_some, advancing.stepped.get_normalize advancing.cyclePlain (by simp)]
  · exact other (by simp) (by simp [withinFields]) (by simp [migratedFields, migrationDefaults])

/-- The digests of the task with the cycle may stand in a task, when those of a proven candidate may. -/
theorem digests_iff (object : task.obj?.isSome = true) {digest : Text}
    (receipts : TaskSchema.validateReceipts host id task = .ok ()) :
    (TaskSchema.nullOr ((underCycle task next digest).get "implementation_digest") isSha256 = true ∧
      TaskSchema.nullOr ((underCycle task next digest).get "diff_digest") isSha256 = true) ↔
      (Proven next → TaskSchema.nullOr (next.get "green_implementation_digest") isSha256 = true ∧
        TaskSchema.nullOr (next.get "green_diff_digest") isSha256 = true) := by
  have known := (TaskSchema.validateReceipts_iff.mp receipts).digests
  have set_ {value : Json} : (task.set "tdd" value).obj?.isSome = true := Json.isSome_set.trans object
  rw [underCycle]
  split
  · next proven =>
      rw [Json.get_set_of_ne _ (by simp), Json.get_set_self (Json.isSome_set.trans set_),
        Json.get_set_self (Json.isSome_set.trans (Json.isSome_set.trans set_))]
      exact ⟨fun both _ => both, fun both => both proven⟩
  · next open_ =>
      rw [Json.get_set_of_ne _ (by simp), Json.get_set_of_ne _ (by simp),
        Json.get_set_of_ne _ (by simp), Json.get_set_of_ne _ (by simp)]
      exact iff_of_true ⟨known _ (by simp), known _ (by simp)⟩ fun proven => absurd proven open_

/-- What the save of a recorded cycle asks for: that the store could save the task as it is, that the
summary fits, and that each receipt is outdated by the cycle or valid for it. -/
theorem prepare_recorded_iff {files : TaskFiles}
    (advancing : Advancing host id task tdd cycle next earlier later before status expected
      observed events fields added)
    (situation : Situation host id task from_ revision epoch gates risks moves)
    (migrates : migrate host task = .ok migrated) (timely : strip time ≠ [])
    (idle : (task.get "active_child").truthy = false)
    (ledger : Evidence.loadEvidence host id files true = .ok records)
    (heads : (Evidence.headOf records).equal (task.get "evidence_head") = true) :
    ∃ stored, stored.get "revision" = .int (revision + 1) ∧
      stored.get? "tdd" = some (recordedTdd host tdd next (earlier ++ next.normalize :: later)
        expected).normalize ∧
      ∀ result, prepare host files task (recordedTask host task tdd next
        (earlier ++ next.normalize :: later) expected) revision time = .ok result ↔
        (Fits next ∧ (∀ gate ∈ itemsUnder task "gates", WaivedAt records (.str id) epoch gate) ∧
          Continuable task ∧
          ReceiptsFit host task (underCycle task next (evidenceSetDigest host records))) ∧
        result = (migrated, stored) := by
  obtain ⟨_, tddValid, receipts, _⟩ := validateTask_eq_ok.mp situation.valid
  have tddObject := advancing.contract.object
  have within := advancing.within situation (earlier ++ next.normalize :: later)
  have recordedIs := advancing.get?_tdd (earlier ++ next.normalize :: later)
  obtain ⟨moved, migrated', updated, migrates', updates, pair, _⟩ := edited_of_within situation within
    (by
      intro record found
      rw [recordedIs, Option.some.injEq] at found
      rw [← found, isSome_normalize, recordedTdd, object_of_foldl_set, Json.isSome_set]
      exact tddObject)
    (by
      intro moved done
      rwa [List.append_nil, List.append_nil])
  cases migrates.symm.trans migrates'
  have updatedTdd : updated.get? "tdd" = some (recordedTdd host tdd next
      (earlier ++ next.normalize :: later) expected).normalize := by
    rw [pair.after.tdd, Json.getD, recordedIs, Option.getD_some,
      withDefaults_eq (complete_recordedTdd advancing.tddPlain tddObject)]
  have migratedTdd : migrated.get? "tdd" = some tdd := by
    rw [pair.before.tdd, Json.getD, advancing.there, Option.getD_some,
      withDefaults_eq advancing.contract.complete]
  obtain ⟨checked, keeps⟩ := keepReceipts_ok situation pair (.str (evidenceSetDigest host records))
  have receipt {field : Text} (member : field = text "falsification" ∨ field = text "review_receipt") :
      updated.get field = task.get field ∧
        (underCycle task next (evidenceSetDigest host records)).get field = task.get field := by
    have facts : (field, Json.null) ∈ migrationDefaults host ∧ field ≠ text "tdd" ∧
        field ∉ recordedFields ∧ field ≠ text "evidence_set_digest" := by
      rcases member with rfl | rfl <;> simp [migrationDefaults, recordedFields]
    refine ⟨?_, get_underCycle facts.2.2.1 facts.2.2.2⟩
    rw [get_of_get? (pair.after.defaults _ facts.1 facts.2.1), Json.getD,
      advancing.kept _ facts.2.2.1, Json.get, Json.getD]
  have digest {field : Text} (member : field = text "implementation_digest" ∨
      field = text "diff_digest") : updated.get field =
        (underCycle task next (evidenceSetDigest host records)).get field := by
    have facts : (field, Json.null) ∈ migrationDefaults host ∧ field ≠ text "tdd" := by
      rcases member with rfl | rfl <;> simp [migrationDefaults]
    rw [get_of_get? (pair.after.defaults _ facts.1 facts.2), ← Json.get,
      advancing.get_digest _ (evidenceSetDigest host records) member]
  have object : (updated.set "evidence_set_digest"
      (.str (evidenceSetDigest host records))).obj?.isSome = true :=
    Json.isSome_set.trans pair.after.object
  have append := validateAppendOnly_within situation pair keeps migratedTdd
    advancing.contract.cyclesAre updatedTdd advancing.cyclesAre (by simp)
    (validateCycleChanges_append advancing.change_iff)
  have left (field : Text) (member : field = text "falsification" ∨ field = text "review_receipt") :
      (updated.set "evidence_set_digest" (.str (evidenceSetDigest host records))).get field =
        task.get field := by
    rw [Json.get_set_of_ne _ (by rcases member with rfl | rfl <;> simp)]
    exact (receipt member).1
  have bound := alike_migrated advancing.object pair.before tddValid
  have fit := @receipts_iff host task migrated _ checked
    (underCycle task next (evidenceSetDigest host records)) bound.falsificationBindings
    bound.reviewBindings (receipts_equal_self receipts) keeps object (left _ (Or.inl rfl))
    (left _ (Or.inr rfl)) (advancing.alike pair updatedTdd _) (receipt (Or.inl rfl)).2
    (receipt (Or.inr rfl)).2
  have formed := validateReceipts_checked (isSha256_sha256 _) receipts keeps pair.after.object
    (Or.inl (receipt (Or.inl rfl)).1) (Or.inl (receipt (Or.inr rfl)).1)
  rw [digest (Or.inl rfl), digest (Or.inr rfl), digests_iff advancing.object receipts] at formed
  obtain ⟨_, _, _, listed⟩ := situation.listed
  have gatesAre := itemsUnder_eq listed.gatesIs
  have movesAre := itemsUnder_eq listed.movesIs
  have comparable := validateAppendOnly_self situation.valid pair.before
  obtain ⟨versioned, walked⟩ := situation.walks
  have ascends := @validateMoves_migrated versioned "CREATED" from_.name (-1) (-1) 1 0 moves moved
    walked (by
      obtain ⟨moved', migrated', numbers, migrates', before, _⟩ := migrated_of_situation situation
      cases migrates.symm.trans migrates'
      have same := before.moves_.symm.trans pair.before.moves_
      rw [Option.some.injEq, Json.arr.injEq] at same
      exact same ▸ numbers)
  have summarized := validateTdd_recordedTdd advancing.stepped advancing.tddPlain advancing.contract
    advancing.mode
  refine ⟨storedTask host task checked revision time, ?_, ?_, fun result => ?_⟩
  · have steady := @steady_storedTask host id task _ migrated updated checked from_ from_ revision epoch
      gates risks moves _ moved _ time situation pair _ keeps
    exact get_of_get? steady.headed.revision_
  · rw [get?_storedTask (by simp [stampedFields]), get?_keepReceipts keeps (by simp) (by simp),
      Json.get?_set_of_ne _ (by simp), updatedTdd]
  · have prepares := @prepare_within_iff host id task _ _ migrated updated checked from_ from_ revision
      epoch gates risks moves _ moved _ time files records result situation pair migrates updates
      timely idle ledger heads keeps
    rw [List.append_nil] at prepares
    rw [prepares, append, comparable, formed, ascends]
    constructor
    · rintro ⟨gates_, ascends, itself, tdd_, attacked, reviewed, proven, is⟩
      obtain ⟨outcome, contract, oracle, implementation, green⟩ :=
        summarized.mp (tdd_ _ updatedTdd)
      refine ⟨⟨⟨outcome, contract, oracle, implementation, green, proven⟩, ?_, ⟨?_, ?_, itself⟩,
        fit.mp ⟨attacked, reviewed⟩⟩, is⟩
      · rw [gatesAre]
        exact fun gate member => (gates_ gate member).1
      · rw [gatesAre]
        exact fun gate member => (gates_ gate member).2
      · rw [movesAre]
        exact ascends
    · rintro ⟨⟨fits, waived, ⟨local_, ascends, itself⟩, receipts_⟩, is⟩
      rw [gatesAre] at waived local_
      rw [movesAre] at ascends
      obtain ⟨attacked, reviewed⟩ := fit.mpr receipts_
      refine ⟨fun gate member => ⟨waived gate member, local_ gate member⟩, ascends, itself, ?_,
        attacked, reviewed, fits.proven, is⟩
      intro other found
      cases updatedTdd.symm.trans found
      exact summarized.mpr ⟨fits.outcome, fits.contract, fits.oracle, fits.implementation, fits.green⟩

end

end Advancing

end StateStore

end CarbonLab.Aegis
