import CarbonLab.Aegis.NextEpoch
import CarbonLab.Lib.JsonKeyed
import CarbonLab.Lib.JsonRead

/-!
# Transitions to an implementation

`transition` to `IMPLEMENT` or `REMEDIATE`: the task that the function hands to the save, the
migration of both tasks, and when `_save_locked` accepts them.
-/

namespace CarbonLab.Aegis

namespace StateStore

open StateMachine

variable {host : Host} {id : Text}

/-! ## The move -/

/-- A move to the next epoch, as it is read back. -/
structure NextMove (move : Json) (from_ goal : Stage) (revision epoch : ℤ) : Prop where
  object : move.obj?.isSome = true
  from_ : move.get "from" = .str from_.name
  to_ : move.get "to" = .str goal.name
  revision_ : move.get "revision" = .int revision
  epoch_ : move.get "epoch" = .int epoch
  reason : isText (move.get "reason") = true
  moment : (move.get "at").str?.isSome = true

theorem plain_name (stage : Stage) : (Json.str stage.name).Plain := by
  cases stage <;> exact Json.plain_str.mpr (mergeSurrogates_text _)

theorem nextMove_of_move {task moved : Json} {reason time : Text} {from_ goal : Stage}
    {revision epoch : ℤ} (revisionIs : task.get? "revision" = some (.int revision))
    (epochIs : task.get? "change_epoch" = some (.int epoch)) (filled : strip reason ≠ [])
    (done : move host task goal.name reason time (.str from_.name) = .ok moved) :
    NextMove moved.normalize from_ goal (revision + 1) epoch := by
  have revisionD : task.getD "revision" (.int 0) = .int revision := by
    rw [Json.getD, revisionIs, Option.getD_some]
  have epochD : task.getD "change_epoch" (.int 0) = .int epoch := by
    rw [Json.getD, epochIs, Option.getD_some]
  simp only [move, revisionD, epochD, Host.int, ok_bind] at done
  cases done
  have found (key : String) (value : Json) := @Json.get_normalize_ofPairs key
    [("at", .str time), ("from", .str from_.name), ("to", .str goal.name),
      ("reason", .str (strip reason)), ("revision", .int (revision + 1)), ("epoch", .int epoch)]
    value (by simp) (by simp)
  refine ⟨rfl, ?_, ?_, ?_, ?_, ?_, ?_⟩
  · exact (found "from" (.str from_.name) (by simp)).trans (plain_name from_)
  · exact (found "to" (.str goal.name) (by simp)).trans (plain_name goal)
  · exact found "revision" (.int (revision + 1)) (by simp)
  · exact found "epoch" (.int epoch) (by simp)
  · rw [found "reason" (.str (strip reason)) (by simp), Json.normalize]
    exact isText_iff.mpr ⟨_, rfl, strip_ne_nil.mpr (ink_mergeSurrogates (exists_ink_strip (strip_ne_nil.mp filled)))⟩
  · rw [found "at" (.str time) (by simp)]
    rfl

/-! ## The edit -/

/-- The fields that belong to an epoch. -/
def advancedFields : List Text :=
  ["state", "change_epoch", "verification_evidence", "verification_epoch", "falsification",
    "review_receipt", "final_audit_complete", "final_audit_workspace", "gates", "risks"]

/-- The fields that a transition to an implementation may change. -/
def turnedFields : List Text :=
  [text "previous_state", "block_reason", "transitions"] ++ advancedFields

/-- A task after its transition to an implementation, as it is read back. -/
structure Turned (task turned : Json) (goal : Stage) (epoch : ℤ) (gates risks moves : List Json)
    (move : Json) : Prop where
  plain : turned.Plain
  object : turned.obj?.isSome = true
  kept : ∀ key ∉ turnedFields, turned.get? key = task.get? key
  state : turned.get? "state" = some (.str goal.name)
  previous : (turned.get? "previous_state").isSome = true
  epoch_ : turned.get? "change_epoch" = some (.int epoch)
  evidence : turned.get? "verification_evidence" = some (.arr [])
  verified : turned.get? "verification_epoch" = some .null
  attacked : turned.get? "falsification" = some .null
  reviewed : turned.get? "review_receipt" = some .null
  audited : turned.get? "final_audit_complete" = some (.bool false)
  gates_ : turned.get? "gates" = some (.arr (gates.map reopenGate))
  risks_ : turned.get? "risks" = some (.arr (risks.map reopenRisk))
  moves_ : turned.get? "transitions" = some (.arr (moves ++ [move]))

theorem mapItems_eq {task : Json} {field : Text} {items : List Json} {change : Json → Json}
    (found : task.get? field = some (.arr items)) :
    mapItems task field change = task.set field (.arr (items.map change)) := by
  rw [mapItems, get_of_get? found]
  rfl

/-- What the marks of a block leave of the other fields. -/
theorem markBlocked_spares {task : Json} {target reason : Text} {old : Json}
    (open_ : target ≠ text "BLOCKED") {key : Text} (previous : text "previous_state" ≠ key)
    (why : text "block_reason" ≠ key) :
    (markBlocked task target reason old).get? key = task.get? key := by
  unfold markBlocked
  rw [if_neg open_]
  split
  · rw [Json.get?_erase _ why, Json.get?_set_of_ne _ previous]
  · rfl

theorem markBlocked_facts {task : Json} {target reason : Text} {old : Json}
    (open_ : target ≠ text "BLOCKED") (plain : task.Plain) (object : task.obj?.isSome = true)
    (there : (task.get? "previous_state").isSome = true) :
    (markBlocked task target reason old).Plain ∧
      (markBlocked task target reason old).obj?.isSome = true ∧
      ((markBlocked task target reason old).get? "previous_state").isSome = true := by
  unfold markBlocked
  rw [if_neg open_]
  split
  · have freed : (task.set "previous_state" .null).Plain := plain.set_ (by simp) Json.plain_null
    refine ⟨freed.erase _, Json.isSome_erase.trans (Json.isSome_set.trans object), ?_⟩
    rw [Json.get?_erase _ (by simp), Json.get?_set object, if_pos rfl]
    rfl
  · exact ⟨plain, object, there⟩

/-- A task before its new move is added. -/
def advance (task : Json) (goal : Stage) (epoch : ℤ) (gates risks : List Json) : Json :=
  ((forgetReceipts ((((task.set "state" (.str goal.name)).set "change_epoch" (.int epoch)).set
    "verification_evidence" (.arr [])).set "verification_epoch" .null)).set "gates"
    (.arr (gates.map reopenGate))).set "risks" (.arr (risks.map reopenRisk))

theorem plain_advance {task : Json} {goal : Stage} {epoch : ℤ} {gates risks : List Json}
    (plain : task.Plain) (gatesPlain : ∀ gate ∈ gates, gate.Plain)
    (risksPlain : ∀ risk ∈ risks, risk.Plain) : (advance task goal epoch gates risks).Plain := by
  have gates' : (Json.arr (gates.map reopenGate)).Plain := by
    refine Json.plain_arr fun gate member => ?_
    obtain ⟨given, inside, rfl⟩ := List.mem_map.mp member
    exact plain_reopenGate (gatesPlain given inside)
  have risks' : (Json.arr (risks.map reopenRisk)).Plain := by
    refine Json.plain_arr fun risk member => ?_
    obtain ⟨given, inside, rfl⟩ := List.mem_map.mp member
    exact plain_reopenRisk (risksPlain given inside)
  have moved := plain.set_ (mergeSurrogates_text "state") (plain_name goal)
  have counted := moved.set_ (mergeSurrogates_text "change_epoch") (Json.plain_int epoch)
  have emptyPlain : (Json.arr []).Plain := Json.plain_arr (by simp)
  have cleared := counted.set_ (mergeSurrogates_text "verification_evidence") emptyPlain
  have dated := cleared.set_ (mergeSurrogates_text "verification_epoch") Json.plain_null
  have attacked := dated.set_ (mergeSurrogates_text "falsification") Json.plain_null
  have reviewed := attacked.set_ (mergeSurrogates_text "review_receipt") Json.plain_null
  have audited := reviewed.set_ (mergeSurrogates_text "final_audit_complete")
    (Json.plain_bool false)
  have forgotten := audited.erase (text "final_audit_workspace")
  have opened := forgotten.set_ (mergeSurrogates_text "gates") gates'
  exact opened.set_ (mergeSurrogates_text "risks") risks'

theorem isSome_advance {task : Json} {goal : Stage} {epoch : ℤ} {gates risks : List Json} :
    (advance task goal epoch gates risks).obj?.isSome = task.obj?.isSome := by
  simp only [advance, forgetReceipts, Json.isSome_set, Json.isSome_erase]

theorem get?_advance_of_kept {task : Json} {goal : Stage} {epoch : ℤ} {gates risks : List Json}
    {key : Text} (kept : key ∉ advancedFields) :
    (advance task goal epoch gates risks).get? key = task.get? key := by
  simp only [advancedFields, List.mem_cons, List.not_mem_nil, or_false, not_or] at kept
  obtain ⟨state, epoch_, evidence, verified, attacked, reviewed, audited, workspace, gates_,
    risks_⟩ := kept
  rw [advance, forgetReceipts, Json.get?_set_of_ne _ (Ne.symm risks_),
    Json.get?_set_of_ne _ (Ne.symm gates_), Json.get?_erase _ (Ne.symm workspace),
    Json.get?_set_of_ne _ (Ne.symm audited), Json.get?_set_of_ne _ (Ne.symm reviewed),
    Json.get?_set_of_ne _ (Ne.symm attacked), Json.get?_set_of_ne _ (Ne.symm verified),
    Json.get?_set_of_ne _ (Ne.symm evidence), Json.get?_set_of_ne _ (Ne.symm epoch_),
    Json.get?_set_of_ne _ (Ne.symm state)]

/-- The fields that `advance` sets. -/
theorem get?_advance {task : Json} {goal : Stage} {epoch : ℤ} {gates risks : List Json}
    (object : task.obj?.isSome = true) {key : Text} {value : Json}
    (member : (key, value) ∈ [(text "state", .str goal.name), ("change_epoch", .int epoch),
      ("verification_evidence", .arr []), ("verification_epoch", .null), ("falsification", .null),
      ("review_receipt", .null), ("final_audit_complete", .bool false),
      ("gates", .arr (gates.map reopenGate)), ("risks", .arr (risks.map reopenRisk))]) :
    (advance task goal epoch gates risks).get? key = some value := by
  simp only [List.mem_cons, Prod.mk.injEq, List.not_mem_nil, or_false] at member
  rcases member with ⟨rfl, rfl⟩ | ⟨rfl, rfl⟩ | ⟨rfl, rfl⟩ | ⟨rfl, rfl⟩ | ⟨rfl, rfl⟩ | ⟨rfl, rfl⟩ |
    ⟨rfl, rfl⟩ | ⟨rfl, rfl⟩ | ⟨rfl, rfl⟩ <;>
    simp [advance, forgetReceipts, Json.get?_set, Json.isSome_set, Json.isSome_erase,
      Json.get?_erase, object]

theorem nextEpoch_eq {task : Json} {goal : Stage} {epoch : ℤ} {gates risks : List Json}
    (object : task.obj?.isSome = true) (epochIs : task.get? "change_epoch" = some (.int epoch))
    (gatesIs : task.get? "gates" = some (.arr gates))
    (risksIs : task.get? "risks" = some (.arr risks)) :
    nextEpoch host (task.set "state" (.str goal.name)) =
      .ok (advance task goal (epoch + 1) gates risks) := by
  have epochD : (task.set "state" (.str goal.name)).getD "change_epoch" (.int 0) = .int epoch := by
    rw [Json.getD, Json.get?_set_of_ne _ (by simp), epochIs, Option.getD_some]
  let cleared := forgetReceipts ((((task.set "state" (.str goal.name)).set "change_epoch"
    (.int (epoch + 1))).set "verification_evidence" (.arr [])).set "verification_epoch" .null)
  have gatesThere : cleared.get? "gates" = some (.arr gates) := by
    simp [cleared, forgetReceipts, Json.get?_set, Json.get?_erase, Json.isSome_set, object, gatesIs]
  have risksThere : (cleared.set "gates" (.arr (gates.map reopenGate))).get? "risks" =
      some (.arr risks) := by
    simp [cleared, forgetReceipts, Json.get?_set, Json.get?_erase, Json.isSome_set,
      Json.isSome_erase, object, risksIs]
  rw [nextEpoch, epochD]
  simp only [Host.int, ok_bind]
  rw [mapItems_eq gatesThere, mapItems_eq risksThere]
  rfl

/-- What is read back of a dictionary in which one field is new. -/
theorem get?_normalize_set {value item : Json} {key other : Text} (plain : value.Plain)
    (object : value.obj?.isSome = true) (keyPlain : mergeSurrogates key = key) :
    (value.set key item).normalize.get? other =
      if key = other then some item.normalize else value.get? other := by
  cases value with
  | obj fields =>
      obtain ⟨ordered, parts⟩ := plain.field
      have keys : ∀ field ∈ Fields.set key item fields, mergeSurrogates field.1 = field.1 := by
        intro field member
        rcases Fields.mem_set member with rfl | old
        · exact keyPlain
        · exact (parts field old).1
      rw [Json.set, Json.get?_normalize ordered.set keys, Fields.get?_set]
      split
      · rfl
      · rw [Json.get?, Json.obj?, Option.bind_some]
        cases found : Fields.get? other fields with
        | none => rfl
        | some there => exact congrArg some (parts _ (Fields.mem_of_get? found)).2
  | _ => cases object

theorem isSome_normalize {value : Json} :
    value.normalize.obj?.isSome = value.obj?.isSome := by
  cases value with
  | float bits =>
      obtain ⟨other, is⟩ := Json.exists_float_normalize bits
      rw [is]
      rfl
  | _ => rfl

/-- An accepted transition to an implementation is one of the allowed moves. -/
theorem accepted_move {task : Json} {goal : Stage} {reason : Text} (open_ : goal ≠ .finalize)
    (accepted : validateTransition host task goal.name reason = .ok ()) :
    strip reason ≠ [] ∧ ∃ from_ : Stage, task.get? "state" = some (.str from_.name) ∧
      goal ∈ from_.allowed := by
  rw [validateTransition] at accepted
  simp only [bind_eq_ok, require_eq_ok, exists_const] at accepted
  obtain ⟨current, is, filled, accepted⟩ := accepted
  rw [item_eq_ok] at is
  refine ⟨filled, ?_⟩
  rw [Stage.ofName?_name] at accepted
  simp only [open_, decide_false, Bool.and_false, Bool.false_eq_true, if_false] at accepted
  split at accepted
  · cases accepted
  · next from_ found =>
      obtain ⟨_, allowed, _⟩ := bind_eq_ok.mp accepted
      obtain ⟨name, isName, ofName⟩ := Option.bind_eq_some_iff.mp found
      rw [Json.str?_eq_some] at isName
      refine ⟨from_, ?_, require_eq_ok.mp allowed⟩
      rw [is, isName, Stage.name_of_ofName? ofName]

theorem applyTransition_turned {surroundings : Surroundings} {task : Json} {files : TaskFiles}
    {from_ goal : Stage} {reason : Text} {revision epoch : ℤ} {gates risks moves : List Json}
    (implementing : goal = .implement ∨ goal = .remediate) (plain : task.Plain)
    (object : task.obj?.isSome = true) (stateIs : task.get? "state" = some (.str from_.name))
    (there : (task.get? "previous_state").isSome = true)
    (revisionIs : task.get? "revision" = some (.int revision))
    (epochIs : task.get? "change_epoch" = some (.int epoch))
    (gatesIs : task.get? "gates" = some (.arr gates))
    (risksIs : task.get? "risks" = some (.arr risks))
    (movesIs : task.get? "transitions" = some (.arr moves)) (filled : strip reason ≠ [])
    (accepted : validateTransition host task goal.name reason = .ok ()) :
    ∃ edited move, applyTransition host surroundings goal.name reason task files = .ok edited ∧
      Turned task edited.normalize goal (epoch + 1) gates risks moves move ∧
      NextMove move from_ goal (revision + 1) (epoch + 1) := by
  have names : goal.name = text "IMPLEMENT" ∨ goal.name = text "REMEDIATE" := by
    rcases implementing with rfl | rfl
    · exact Or.inl rfl
    · exact Or.inr rfl
  have unblocked : goal.name ≠ text "BLOCKED" := by
    rcases names with is | is <;> rw [is] <;> simp
  have closing : validateClosing host surroundings task files goal.name = .ok () := by
    rcases names with is | is <;> rw [validateClosing, is] <;> simp <;> rfl
  obtain ⟨basePlain, baseObject, basePrevious⟩ :=
    @markBlocked_facts task goal.name reason (.str from_.name) unblocked plain object there
  have spares {key : Text} :=
    @markBlocked_spares task goal.name reason (.str from_.name) unblocked key
  generalize baseIs : markBlocked task goal.name reason (.str from_.name) = base at *
  have baseEpoch : base.get? "change_epoch" = some (.int epoch) := by
    rw [spares (by simp) (by simp), epochIs]
  have baseGates : base.get? "gates" = some (.arr gates) := by
    rw [spares (by simp) (by simp), gatesIs]
  have baseRisks : base.get? "risks" = some (.arr risks) := by
    rw [spares (by simp) (by simp), risksIs]
  let advanced := advance base goal (epoch + 1) gates risks
  have advancedPlain : advanced.Plain := plain_advance basePlain
    (plain.get? gatesIs).item (plain.get? risksIs).item
  have advancedObject : advanced.obj?.isSome = true := isSome_advance.trans baseObject
  have advancedMoves : advanced.get? "transitions" = some (.arr moves) := by
    rw [get?_advance_of_kept (by simp [advancedFields]), spares (by simp) (by simp), movesIs]
  have advancedRevision : advanced.get? "revision" = some (.int revision) := by
    rw [get?_advance_of_kept (by simp [advancedFields]), spares (by simp) (by simp), revisionIs]
  have advancedEpoch : advanced.get? "change_epoch" = some (.int (epoch + 1)) :=
    get?_advance baseObject (by simp)
  have advances : nextEpoch host (base.set "state" (.str goal.name)) = .ok advanced :=
    nextEpoch_eq baseObject baseEpoch baseGates baseRisks
  obtain ⟨moved, moves_⟩ : ∃ moved, move host advanced goal.name reason surroundings.moment
      (.str from_.name) = .ok moved := by
    rw [move, Json.getD, advancedRevision, Json.getD, advancedEpoch]
    exact ⟨_, rfl⟩
  refine ⟨advanced.set "transitions" (.arr (moves ++ [moved])), moved.normalize, ?_, ?_,
    nextMove_of_move advancedRevision advancedEpoch filled moves_⟩
  · have chosen : goal.name = text "IMPLEMENT" ∨ goal.name = text "REMEDIATE" := names
    rw [applyTransition]
    simp only [accepted, closing, item_eq_ok.mpr stateIs, baseIs, ok_bind, chosen, if_true, advances,
      moves_]
    rw [appendItem, Json.getD, advancedMoves]
    rfl
  · have movesBack : (Json.arr (moves ++ [moved])).normalize = .arr (moves ++ [moved.normalize]) := by
      have before : (Json.arr moves).normalize = .arr moves := plain.get? movesIs
      rw [Json.normalize, Json.normalizeItems_eq_map, Json.arr.injEq] at before ⊢
      rw [List.map_append, before, List.map_singleton]
    have readBack {key : Text} := @get?_normalize_set advanced (.arr (moves ++ [moved])) _ key
      advancedPlain advancedObject (mergeSurrogates_text "transitions")
    have unchanged {key : Text} (differs : text "transitions" ≠ key) :
        (advanced.set "transitions" (.arr (moves ++ [moved]))).normalize.get? key =
          advanced.get? key := readBack.trans (if_neg differs)
    have set_ {key : Text} (differs : text "transitions" ≠ key) {value : Json} member :=
      (unchanged differs).trans (@get?_advance base goal (epoch + 1) gates risks baseObject key value
        member)
    exact {
      plain := Json.plain_normalize _
      object := by
        rw [isSome_normalize, Json.isSome_set]
        exact advancedObject
      kept := by
        intro key spared
        simp only [turnedFields, List.mem_append, List.mem_cons, List.not_mem_nil, or_false,
          not_or] at spared
        obtain ⟨⟨previous, why, transitions⟩, others⟩ := spared
        rw [unchanged (Ne.symm transitions), get?_advance_of_kept others,
          spares (Ne.symm previous) (Ne.symm why)]
      state := set_ (by simp) (by simp)
      previous := by
        rw [unchanged (by simp), get?_advance_of_kept (by simp [advancedFields])]
        exact basePrevious
      epoch_ := set_ (by simp) (by simp)
      evidence := set_ (by simp) (by simp)
      verified := set_ (by simp) (by simp)
      attacked := set_ (by simp) (by simp)
      reviewed := set_ (by simp) (by simp)
      audited := set_ (by simp) (by simp)
      gates_ := set_ (by simp) (by simp)
      risks_ := set_ (by simp) (by simp)
      moves_ := by
        rw [readBack, if_pos rfl, movesBack] }

/-! ## Migration -/

/-- A task after its migration. -/
structure Migrated (host : Host) (copy : Json) (moved : List Json) (migrated : Json) : Prop where
  object : migrated.obj?.isSome = true
  schema : (migrated.get "schema").equal (.int 4) = true
  kept : ∀ key ∉ migratedFields host, migrated.get? key = copy.get? key
  defaults : ∀ field ∈ migrationDefaults host, field.1 ≠ text "tdd" →
    migrated.get? field.1 = some (copy.getD field.1 field.2)
  tdd : migrated.get? "tdd" = some (withDefaults
    (copy.getD "tdd" (.obj (Fields.ofPairs TaskSchema.emptyTdd))) TaskSchema.emptyTdd)
  moves_ : migrated.get? "transitions" = some (.arr moved)

/-- The cycles of a task after its migration. -/
theorem Migrated.cycles {copy migrated : Json} {moved : List Json}
    (after : Migrated host copy moved migrated)
    (valid : ∀ tdd, copy.get? "tdd" = some tdd → TaskSchema.validateTdd host id tdd = .ok ()) :
    ∃ tdd cycles, migrated.get? "tdd" = some tdd ∧ Contract host id tdd cycles := by
  obtain ⟨cycles, contract⟩ := validateTdd_eq_ok.mp (validTdd_withDefaults valid)
  exact ⟨_, cycles, after.tdd, contract⟩

theorem fetchD_cycles {task tdd : Json} {cycles : List Json} (there : task.get? "tdd" = some tdd)
    (cyclesAre : tdd.get? "cycles" = some (.arr cycles)) :
    fetchD (task.getD "tdd" (.obj [])) "cycles" (.arr []) = .ok (.arr cycles) := by
  have object := isSome_of_get_ne_null (by rw [get_of_get? cyclesAre]; simp)
  rw [Json.getD, there, Option.getD_some]
  exact fetchD_eq_ok.mpr ⟨object, by rw [Json.getD, cyclesAre, Option.getD_some]⟩

theorem get?_withDefaults_of_mem {value default : Json} {defaults : List (Text × Json)} {key : Text}
    (object : value.obj?.isSome = true) (nodup : (defaults.map (·.1)).Nodup)
    (member : (key, default) ∈ defaults) :
    (withDefaults value defaults).get? key = some (value.getD key default) := by
  induction defaults generalizing value with
  | nil => cases member
  | cons field defaults ih =>
      obtain ⟨fresh, nodup⟩ := List.nodup_cons.mp nodup
      change (withDefaults (setDefault value field.1 field.2) defaults).get? key = _
      rcases List.mem_cons.mp member with rfl | later
      · rw [get?_withDefaults_of_not_mem fresh, setDefault]
        split
        · next there =>
            obtain ⟨found, is⟩ := Option.isSome_iff_exists.mp there
            rw [Json.getD, is, Option.getD_some]
        · next absent =>
            rw [Option.not_isSome_iff_eq_none] at absent
            rw [Json.get?_set object, if_pos rfl, Json.getD, absent, Option.getD_none]
      · have differs : field.1 ≠ key := by
          rintro rfl
          exact fresh (List.mem_map.mpr ⟨_, later, rfl⟩)
        rw [ih (isSome_setDefault.trans object) nodup later, Json.getD,
          get?_setDefault_of_ne differs, Json.getD]

theorem migrated_of_moves {task : Json} {moves moved : List Json}
    (object : task.normalize.obj?.isSome = true)
    (tddObject : ∀ tdd, task.normalize.get? "tdd" = some tdd → tdd.obj?.isSome = true)
    (movesIs : task.normalize.get? "transitions" = some (.arr moves))
    (done : migrateMoves 1 0 moves = .ok moved) :
    ∃ migrated, migrate host task = .ok migrated ∧ Migrated host task.normalize moved migrated := by
  generalize copyIs : task.normalize = copy at *
  generalize currentIs : (if (copy.get "schema").equal (.int 4) = true then copy
    else copy.set "schema" (.int 4)) = current
  have currentObject : current.obj?.isSome = true := by
    rw [← currentIs]
    split
    · exact object
    · exact Json.isSome_set.trans object
  have currentSchema : (current.get "schema").equal (.int 4) = true := by
    rw [← currentIs]
    split
    · next same => exact same
    · rw [Json.get_set_self object]
      exact Json.int_equal_int.mpr rfl
  have currentKept {key : Text} (differs : text "schema" ≠ key) : current.get? key = copy.get? key := by
    rw [← currentIs]
    split
    · rfl
    · exact Json.get?_set_of_ne _ differs
  have nodup : ((migrationDefaults host).map (·.1)).Nodup := by simp [migrationDefaults]
  have filledObject : (withDefaults current (migrationDefaults host)).obj?.isSome = true :=
    isSome_withDefaults.trans currentObject
  have filledDefault {key : Text} {default : Json} (member : (key, default) ∈ migrationDefaults host)
      (differs : text "schema" ≠ key) : (withDefaults current (migrationDefaults host)).get? key =
        some (copy.getD key default) := by
    rw [get?_withDefaults_of_mem currentObject nodup member, Json.getD, currentKept differs, Json.getD]
  have filledTdd : (withDefaults current (migrationDefaults host)).get "tdd" =
      copy.getD "tdd" (.obj (Fields.ofPairs TaskSchema.emptyTdd)) :=
    get_of_get? (filledDefault (by simp [migrationDefaults]) (by simp))
  have tddThere : (copy.getD "tdd" (.obj (Fields.ofPairs TaskSchema.emptyTdd))).obj?.isSome = true := by
    rw [Json.getD]
    cases is : copy.get? "tdd" with
    | none => rfl
    | some tdd => exact tddObject tdd is
  let complete := (withDefaults current (migrationDefaults host)).set "tdd" (withDefaults
    (copy.getD "tdd" (.obj (Fields.ofPairs TaskSchema.emptyTdd))) TaskSchema.emptyTdd)
  have completeObject : complete.obj?.isSome = true := Json.isSome_set.trans filledObject
  have completeKept {key : Text} (tdd : text "tdd" ≠ key) (schema : text "schema" ≠ key)
      (absent : key ∉ (migrationDefaults host).map (·.1)) : complete.get? key = copy.get? key := by
    rw [Json.get?_set_of_ne _ tdd, get?_withDefaults_of_not_mem absent, currentKept schema]
  have completeMoves : complete.get? "transitions" = some (.arr moves) := by
    rw [completeKept (by simp) (by simp) (by simp [migrationDefaults]), movesIs]
  have sealed_ {key : Text} (transitions : text "transitions" ≠ key)
      (integrity : text "integrity_sha256" ≠ key) :
      (sealTask host (complete.set "transitions" (.arr moved))).get? key = complete.get? key := by
    rw [sealTask, reseal, Json.get?_set_of_ne _ integrity, Json.get?_set_of_ne _ transitions]
  refine ⟨sealTask host (complete.set "transitions" (.arr moved)), ?_, ?_⟩
  · rw [migrate]
    simp only [copyIs, fetch_eq_ok.mpr ⟨object, rfl⟩, ok_bind, currentIs, filledTdd, tddThere, require,
      if_true]
    have filledMoves : ((withDefaults current (migrationDefaults host)).set "tdd" (withDefaults
        (copy.getD "tdd" (.obj (Fields.ofPairs TaskSchema.emptyTdd))) TaskSchema.emptyTdd)).get?
          "transitions" = some (.arr moves) := completeMoves
    rw [filledMoves]
    simp only [done, ok_bind]
    rfl
  · exact {
      object := isSome_reseal.trans (Json.isSome_set.trans completeObject)
      schema := by
        rw [Json.get, Json.getD, sealed_ (by simp) (by simp), Json.get?_set_of_ne _ (by simp),
          get?_withDefaults_of_not_mem (by simp [migrationDefaults])]
        exact currentSchema
      kept := by
        intro key absent
        simp only [migratedFields, List.mem_append, List.mem_cons, List.not_mem_nil, or_false,
          not_or] at absent
        obtain ⟨⟨schema, tdd, transitions, integrity⟩, others⟩ := absent
        rw [sealed_ (Ne.symm transitions) (Ne.symm integrity),
          completeKept (Ne.symm tdd) (Ne.symm schema) others]
      defaults := by
        rintro ⟨key, default⟩ member other
        have inside : key ∈ (migrationDefaults host).map (·.1) :=
          List.mem_map_of_mem (f := Prod.fst) member
        have named : text "transitions" ≠ key ∧ text "integrity_sha256" ≠ key ∧
            text "schema" ≠ key := by
          refine ⟨?_, ?_, ?_⟩ <;>
            rintro rfl <;>
            simp [migrationDefaults] at inside
        rw [sealed_ named.1 named.2.1, Json.get?_set_of_ne _ (Ne.symm other),
          filledDefault member named.2.2]
      tdd := by
        rw [sealed_ (by simp) (by simp), Json.get?_set filledObject, if_pos rfl]
      moves_ := by
        rw [sealTask, reseal, Json.get?_set_of_ne _ (by simp), Json.get?_set completeObject,
          if_pos rfl] }

theorem get_setDefault_of_ne {value default : Json} {key other : Text} (differs : key ≠ other) :
    (setDefault value key default).get other = value.get other := by
  rw [Json.get, Json.getD, get?_setDefault_of_ne differs, Json.get, Json.getD]

/-- The moves of a valid task can be migrated, and still lead to its state. -/
theorem migrateMoves_of_leads {stage final : Stage} {moves : List Json} {index epoch : ℤ}
    (leads : Leads stage moves final) :
    ∃ moved, migrateMoves index epoch moves = .ok moved ∧ endOf stage.name moved = final.name := by
  induction leads generalizing index epoch with
  | stay => exact ⟨[], rfl, rfl⟩
  | @move stage next last move moves from_ to_ allowed _ ih =>
      have object := @isSome_of_get_ne_null move _ (by rw [to_]; simp)
      obtain ⟨rest, done, ends⟩ := @ih (index + 1)
        (if next.name ∈ [text "IMPLEMENT", "REMEDIATE"] then epoch + 1 else epoch)
      rw [migrateMoves, fetch_eq_ok.mpr ⟨object, to_⟩]
      simp only [ok_bind, inSet, decide_eq_true_eq, done]
      refine ⟨_, rfl, ?_⟩
      rw [endOf, get_setDefault_of_ne (by simp), get_setDefault_of_ne (by simp), to_]
      exact ends

theorem migrateMoves_append {index epoch : ℤ} {moves moved : List Json} {move : Json} {name : Text}
    (done : migrateMoves index epoch moves = .ok moved) (to_ : move.get "to" = .str name)
    (revision : (move.get? "revision").isSome = true) (epoch_ : (move.get? "epoch").isSome = true) :
    migrateMoves index epoch (moves ++ [move]) = .ok (moved ++ [move]) := by
  induction moves generalizing index epoch moved with
  | nil =>
      cases done
      have object := @isSome_of_get_ne_null move _ (by rw [to_]; simp)
      rw [List.nil_append, migrateMoves, fetch_eq_ok.mpr ⟨object, to_⟩]
      simp only [ok_bind, inSet, migrateMoves, setDefault, revision, epoch_, if_true]
      rfl
  | cons first moves ih =>
      simp only [migrateMoves, bind_eq_ok] at done
      obtain ⟨to', fetched, starts, isStart, rest, done, is⟩ := done
      cases is
      rw [List.cons_append, migrateMoves]
      simp only [fetched, ok_bind, isStart, ih done]
      rfl

/-! ## The comparison with the task before -/

theorem validateEntries_map {field : Text} {same : Json → Json → Bool} {deleted rewritten : Text}
    {old new : Json} {change : Json → Json} {entries : List Json}
    (object : ∀ entry, (change entry).get? "id" = entry.get? "id")
    (isObject : ∀ entry, (change entry).obj?.isSome = entry.obj?.isSome)
    (kept : ∀ entry earlier, same (change entry) earlier = same entry earlier)
    (oldIs : old.get? field = some (.arr entries))
    (newIs : new.get? field = some (.arr (entries.map change))) :
    validateEntries field same deleted rewritten old new =
      validateEntries field same deleted rewritten old old := by
  have ids : (fun entry => item entry "id") ∘ change = fun entry => item entry "id" := by
    funext entry
    simp only [Function.comp_apply, item, object, isObject]
  have keys : (fun entry : Json => entry.get "id") ∘ change = fun entry => entry.get "id" := by
    funext entry
    simp only [Function.comp_apply, Json.get, Json.getD, object]
  have oldList : listD old field = .arr entries := by rw [listD, Json.getD, oldIs, Option.getD_some]
  have newList : listD new field = .arr (entries.map change) := by
    rw [listD, Json.getD, newIs, Option.getD_some]
  simp only [validateEntries, oldList, newList, Json.arr?, Option.getD_some, iterate, ok_bind, idsOf,
    List.mapM_map, ids, List.all_map, Function.comp_def]
  have sames (entry : Json) :
      (entries.reverse.find? fun earlier => (earlier.get "id").Alike ((change entry).get "id")).all
        (same (change entry)) =
      (entries.reverse.find? fun earlier => (earlier.get "id").Alike (entry.get "id")).all
        (same entry) := by
    have id_ : (change entry).get "id" = entry.get "id" := congrFun keys entry
    have sameIs : same (change entry) = same entry := funext (kept entry)
    rw [id_, sameIs]
  simp only [sames]

theorem sameGate_reopenGate (gate earlier : Json) :
    sameGate (reopenGate gate) earlier = sameGate gate earlier := by
  simp only [sameGate]
  rw [get_reopenGate (by simp) (by simp), getD_reopenGate (by simp) (by simp),
    get_reopenGate (by simp) (by simp), get_reopenGate (by simp) (by simp)]

theorem sameRisk_reopenRisk (risk earlier : Json) :
    sameRisk (reopenRisk risk) earlier = sameRisk risk earlier := by
  simp only [sameRisk]
  rw [get_reopenRisk (by simp) (by simp), get_reopenRisk (by simp) (by simp)]

/-- The epoch of a task stays or grows by one. -/
theorem validateEpochChange_of_le {old new : Json} {before after : ℤ}
    (beforeIs : old.get? "change_epoch" = some (.int before))
    (afterIs : new.get? "change_epoch" = some (.int after)) (low : before ≤ after)
    (high : after ≤ before + 1) : validateEpochChange old new = .ok () := by
  have beforeD : old.getD "change_epoch" (.int 0) = .int before := by
    rw [Json.getD, beforeIs, Option.getD_some]
  have afterD : new.getD "change_epoch" (.int 0) = .int after := by
    rw [Json.getD, afterIs, Option.getD_some]
  simp only [validateEpochChange, beforeD, afterD, Json.plainInt?, Option.getD_some, less,
    Json.number?, numberLess, bind_eq_ok, require_eq_ok, Except.ok.injEq, exists_eq_left',
    decide_eq_true_eq, not_lt]
  constructor
  · exact_mod_cast low
  · exact_mod_cast high

/-- A list that is kept is continued when it continues itself. -/
theorem extends_kept {old new : Json} {field : Text} (same : new.get? field = old.get? field) :
    extends_ ((listD old field).arr?.getD []) (listD new field) =
      extends_ ((listD old field).arr?.getD []) (listD old field) := by
  rw [listD, listD, Json.getD, Json.getD, same]

/-- A list that has the items of another one in front continues it. -/
theorem extends_longer {old new : Json} {field : Text} {items items' : List Json}
    (before : old.get? field = some (.arr items)) (after : new.get? field = some (.arr items'))
    (front : Json.equalItems (items'.take items.length) items = true) :
    extends_ ((listD old field).arr?.getD []) (listD new field) =
      extends_ ((listD old field).arr?.getD []) (listD old field) := by
  rw [listD, listD, Json.getD, Json.getD, before, after]
  simp [Json.arr?, extends_, front]

theorem equalItems_take_append (items more : List Json) :
    Json.equalItems ((items ++ more).take items.length) items = true := by
  rw [List.take_left, Json.equalItems_self]

/-- A task continues another one when it keeps its fields and continues its lists, and has other
cycles, gates and risks that are no other ones, and another epoch, provided that the other
one continues itself. -/
theorem validateAppendOnly_iff_self {old new : Json} {cycles cycles' : List Json}
    (fields : ∀ field ∈ immutableFields, new.get field = old.get field)
    (lists : ∀ field ∈ [text "decisions", "child_history", "transitions"],
      extends_ ((listD old field).arr?.getD []) (listD new field) =
        extends_ ((listD old field).arr?.getD []) (listD old field))
    (oldCycles : fetchD (old.getD "tdd" (.obj [])) "cycles" (.arr []) = .ok (.arr cycles))
    (newCycles : fetchD (new.getD "tdd" (.obj [])) "cycles" (.arr []) = .ok (.arr cycles'))
    (longer : cycles.length ≤ cycles'.length)
    (changes : validateCycleChanges cycles cycles' = .ok () ↔
      validateCycleChanges cycles cycles = .ok ())
    (stays : validateEpochChange old old = .ok ()) (grows : validateEpochChange old new = .ok ())
    (gates : ∀ deleted rewritten, validateEntries "gates" sameGate deleted rewritten old new =
      validateEntries "gates" sameGate deleted rewritten old old)
    (risks : ∀ deleted rewritten, validateEntries "risks" sameRisk deleted rewritten old new =
      validateEntries "risks" sameRisk deleted rewritten old old) :
    validateAppendOnly old new = .ok () ↔ validateAppendOnly old old = .ok () := by
  have before : (listD (old.getD "tdd" (.obj [])) "cycles").arr?.getD [] = cycles := by
    rw [fetchD_eq_ok] at oldCycles
    rw [listD, oldCycles.2]
    rfl
  have fieldChecks : (∀ field ∈ immutableFields, (new.get field).equal (old.get field) = true) ↔
      ∀ field ∈ immutableFields, (old.get field).equal (old.get field) = true :=
    forall₂_congr fun field member => by rw [fields field member]
  have listChecks : (∀ field ∈ [text "decisions", "child_history", "transitions"],
      extends_ ((listD old field).arr?.getD []) (listD new field) = .ok true) ↔
      ∀ field ∈ [text "decisions", "child_history", "transitions"],
        extends_ ((listD old field).arr?.getD []) (listD old field) = .ok true :=
    forall₂_congr fun field member => by rw [lists field member]
  have items (entries : List Json) : (Json.arr entries).arr? = some entries := rfl
  simp only [validateAppendOnly, bind_eq_ok, forM_eq_ok, require_eq_ok, exists_eq_right,
    oldCycles, newCycles, Except.ok.injEq, exists_eq_left', items, before, longer, le_refl,
    fieldChecks, listChecks, Unique.exists_iff, PUnit.default_eq_unit, changes, stays, grows, gates,
    risks]

/-- The fields of the history that a transition to an implementation leaves alone. -/
def steadyFields : List Text := immutableFields ++ [text "decisions", "child_history", "tdd"]

/-- A task at its next epoch continues a task that continues itself. -/
theorem validateAppendOnly_next {old new move : Json} {gates risks moves cycles : List Json} {epoch : ℤ}
    (steady : ∀ key ∈ steadyFields, new.get? key = old.get? key)
    (oldMoves : old.get? "transitions" = some (.arr moves))
    (newMoves : new.get? "transitions" = some (.arr (moves ++ [move])))
    (oldCycles : fetchD (old.getD "tdd" (.obj [])) "cycles" (.arr []) = .ok (.arr cycles))
    (oldGates : old.get? "gates" = some (.arr gates))
    (newGates : new.get? "gates" = some (.arr (gates.map reopenGate)))
    (oldRisks : old.get? "risks" = some (.arr risks))
    (newRisks : new.get? "risks" = some (.arr (risks.map reopenRisk)))
    (oldEpoch : old.get? "change_epoch" = some (.int epoch))
    (newEpoch : new.get? "change_epoch" = some (.int (epoch + 1))) :
    validateAppendOnly old new = .ok () ↔ validateAppendOnly old old = .ok () := by
  have tdd : new.getD "tdd" (.obj []) = old.getD "tdd" (.obj []) := by
    rw [Json.getD, steady _ (by simp [steadyFields]), Json.getD]
  refine validateAppendOnly_iff_self ?_ ?_ oldCycles (tdd ▸ oldCycles) le_rfl Iff.rfl
    (validateEpochChange_of_le oldEpoch oldEpoch le_rfl (by omega))
    (validateEpochChange_of_le oldEpoch newEpoch (by omega) le_rfl) ?_ ?_
  · intro field member
    rw [Json.get, Json.getD, steady field (List.mem_append_left _ member), Json.get, Json.getD]
  · simp only [List.forall_mem_cons, List.not_mem_nil, false_implies, implies_true, and_true]
    exact ⟨extends_kept (steady _ (by simp [steadyFields])),
      extends_kept (steady _ (by simp [steadyFields])),
      extends_longer oldMoves newMoves (equalItems_take_append _ _)⟩
  · intro deleted rewritten
    exact @validateEntries_map "gates" sameGate deleted rewritten old new reopenGate gates
      (fun _ => get?_reopenGate (by simp) (by simp)) (fun _ => isSome_reopenGate)
      sameGate_reopenGate oldGates newGates
  · intro deleted rewritten
    exact @validateEntries_map "risks" sameRisk deleted rewritten old new reopenRisk risks
      (fun _ => get?_reopenRisk (by simp) (by simp)) (fun _ => isSome_reopenRisk)
      sameRisk_reopenRisk oldRisks newRisks

end StateStore

end CarbonLab.Aegis
