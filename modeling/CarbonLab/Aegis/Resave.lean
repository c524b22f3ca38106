import CarbonLab.Aegis.SteadySave

/-!
# Saves at the same stage

A save may change the gates of a task, its active child, its handoffs and its receipts and
leave everything else.  The task that it stores is valid when these are; a task that was
stored by such a save can be saved again.
-/

namespace CarbonLab.Aegis

namespace StateStore

open StateMachine

variable {host : Host} {id : Text}

/-! ## The stored task -/

/-- The fields that a save at the same stage may change. -/
def againFields : List Text :=
  ["gates", "child_history", "active_child", "final_audit_complete", "falsification",
    "review_receipt", "evidence_head", "transitions"]

/-- A task that was edited at its stage, as it is read back. -/
structure Again (task again : Json) (gates handoffs moves : List Json) : Prop where
  object : again.obj?.isSome = true
  kept : ∀ key ∉ againFields, again.get? key = task.get? key
  gates_ : again.get? "gates" = some (.arr gates)
  handoffs_ : again.get? "child_history" = some (.arr handoffs)
  moves_ : again.get? "transitions" = some (.arr moves)
  child : (again.get? "active_child").isSome = true
  audited : again.get? "final_audit_complete" = task.get? "final_audit_complete" ∨
    again.get? "final_audit_complete" = some (.bool false)

/-- The fields that such a save leaves as they are. -/
def resavedFields : List Text :=
  ["id", "title", "mode", "complexity", "risk", "created", "precheck", "decisions", "state",
    "previous_state", "change_epoch", "risks", "verification_evidence", "verification_epoch"]

/-- A task that was stored at the stage of the task before. -/
structure Resaved (host : Host) (task stored : Json) (gates handoffs moves : List Json)
    (revision : ℤ) (time : Text) : Prop where
  object : stored.obj?.isSome = true
  schema : (stored.get "schema").equal (.int 4) = true
  kept : ∀ key ∈ resavedFields, stored.get? key = task.get? key
  tdd : (stored.get? "tdd").isSome = true
  gates_ : stored.get? "gates" = some (.arr gates)
  handoffs_ : stored.get? "child_history" = some (.arr handoffs)
  moves_ : stored.get? "transitions" = some (.arr moves)
  child : (stored.get? "active_child").isSome = true
  audited : stored.get? "final_audit_complete" = task.get? "final_audit_complete" ∨
    stored.get? "final_audit_complete" = some (.bool false)
  material : stored.get? "material_claim" = some (task.getD "material_claim" (.bool true))
  revision_ : stored.get? "revision" = some (.int revision)
  updated : stored.get? "updated" = some (.str time)
  integrity : stored.get "integrity_sha256" = .str (TaskSchema.stateDigest host stored)

namespace Resaved

variable {task stored : Json} {gates handoffs moves : List Json} {revision : ℤ} {time : Text}

theorem get (resaved : Resaved host task stored gates handoffs moves revision time) {key : Text}
    (member : key ∈ resavedFields) : stored.get key = task.get key := by
  rw [Json.get, Json.getD, resaved.kept key member, Json.get, Json.getD]

theorem versioned (resaved : Resaved host task stored gates handoffs moves revision time) :
    TaskSchema.isVersioned (stored.get "schema") = true := by
  rw [TaskSchema.isVersioned, resaved.schema, Bool.or_true]

theorem header (resaved : Resaved host task stored gates handoffs moves revision time)
    (low : 0 ≤ revision) (timely : strip time ≠ [])
    (header : TaskSchema.validateHeader task (some id) = .ok id) :
    TaskSchema.validateHeader stored (some id) = .ok id := by
  have formed := TaskSchema.validateHeader_iff.mp header
  have texts := formed.texts
  have counters := formed.counters
  simp only [List.forall_mem_cons] at texts counters
  have schema : (stored.get? "schema").isSome = true := by
    rw [Json.get?_of_get_ne_null]
    · rfl
    · intro null
      have same := resaved.schema
      rw [null] at same
      cases same
  refine TaskSchema.validateHeader_iff.mpr {
    object := resaved.object
    schema := List.any_eq_true.mpr ⟨4, by simp, resaved.schema⟩
    complete := fun field member => ?_
    contract := fun _ => resaved.tdd
    named := by
      rw [resaved.get (by simp [resavedFields])]
      exact formed.named
    expected := formed.expected
    mode := by
      rw [resaved.get (by simp [resavedFields])]
      exact formed.mode
    complexity := by
      rw [resaved.get (by simp [resavedFields])]
      exact formed.complexity
    risk := by
      rw [resaved.get (by simp [resavedFields])]
      exact formed.risk
    state := by
      rw [resaved.get (by simp [resavedFields])]
      exact formed.state
    texts := by
      simp only [List.forall_mem_cons, List.not_mem_nil, false_implies, implies_true, and_true]
      refine ⟨?_, ?_, ?_⟩
      · rw [resaved.get (by simp [resavedFields])]
        exact texts.1
      · rw [resaved.get (by simp [resavedFields])]
        exact texts.2.1
      · rw [get_of_get? resaved.updated]
        exact isText_iff.mpr ⟨time, rfl, timely⟩
    counters := by
      simp only [List.forall_mem_cons, List.not_mem_nil, false_implies, implies_true, and_true]
      refine ⟨?_, ?_⟩
      · rw [get_of_get? resaved.revision_]
        exact isAtLeast_iff.mpr ⟨revision, rfl, low⟩
      · rw [resaved.get (by simp [resavedFields])]
        exact counters.2.1
    precheck := by
      rw [resaved.get (by simp [resavedFields])]
      exact formed.precheck }
  by_cases kept : field ∈ resavedFields
  · rw [resaved.kept field kept]
    exact formed.complete field member
  · have audit : (stored.get? "final_audit_complete").isSome = true := by
      rcases resaved.audited with is | is
      · rw [is]
        exact formed.complete _ (by simp [TaskSchema.required])
      · rw [is]
        rfl
    have others : ∀ field ∈ [text "schema", "active_child", "child_history", "gates", "transitions",
        "revision", "updated", "final_audit_complete"], (stored.get? field).isSome = true := by
      simp only [List.forall_mem_cons, resaved.gates_, resaved.handoffs_, resaved.moves_,
        resaved.revision_, resaved.updated, Option.isSome_some, true_and]
      exact ⟨schema, resaved.child, audit, by simp⟩
    refine others field ?_
    revert field
    simp [TaskSchema.required, resavedFields]

/-- The lists of a resaved task are valid when its gates and its handoffs are. -/
theorem lists (resaved : Resaved host task stored gates handoffs moves revision time)
    {gates' risks decisions handoffs' evidence moves' : List Json}
    (listed : Listed task gates' risks decisions handoffs' evidence moves')
    (gateIds : TaskSchema.uniqueIds gates "gate" = .ok ())
    (gatesValid : ∀ gate ∈ gates, TaskSchema.validateGate (stored.get "schema") gate = .ok ())
    (handoffIds : ∃ ids, handoffs.mapM handoffKey = .ok ids ∧ distinct ids = .ok true)
    (handoffsValid : ∀ handoff ∈ handoffs, TaskSchema.validateHandoff handoff = .ok ()) :
    TaskSchema.validateLists stored = .ok () := by
  refine validateLists_eq_ok.mpr ⟨gates, risks, decisions, handoffs, evidence, moves, ?_⟩
  exact {
    gatesIs := resaved.gates_
    risksIs := (resaved.kept _ (by simp [resavedFields])).trans listed.risksIs
    decisionsIs := (resaved.kept _ (by simp [resavedFields])).trans listed.decisionsIs
    handoffsIs := resaved.handoffs_
    evidenceIs := (resaved.kept _ (by simp [resavedFields])).trans listed.evidenceIs
    movesIs := resaved.moves_
    gateIds := gateIds
    riskIds := listed.riskIds
    decisionIds := listed.decisionIds
    handoffIds := handoffIds
    evidenceIds := listed.evidenceIds
    single := listed.single
    verified := by
      rw [resaved.get (by simp [resavedFields])]
      exact listed.verified
    flags := by
      have flags := listed.flags
      simp only [List.forall_mem_cons, resaved.material] at flags ⊢
      refine ⟨?_, ?_, by simp⟩
      · rcases resaved.audited with is | is
        · rw [is]
          exact flags.1
        · rw [is]
          rfl
      · have flag := flags.2.1
        rw [Json.getD]
        cases is : task.get? "material_claim" with
        | none => rfl
        | some value =>
            rw [is] at flag
            exact flag
    gates_ := gatesValid
    risks_ := listed.risks_
    decisions_ := listed.decisions_
    handoffs_ := handoffsValid }

/-- The moves of a resaved task are valid when they lead to its state. -/
theorem history (resaved : Resaved host task stored gates handoffs moves revision time)
    {stage : Stage} (stateIs : task.get? "state" = some (.str stage.name))
    (walks : TaskSchema.validateMoves true "CREATED" (-1) moves = .ok stage.name) :
    TaskSchema.validateHistory stored = .ok () := by
  have here := (resaved.kept "state" (by simp [resavedFields])).trans stateIs
  simp only [TaskSchema.validateHistory, bind_eq_ok, require_eq_ok, requireList_iff,
    resaved.versioned, get_of_get? here, resaved.moves_, Option.some.injEq, Json.arr.injEq,
    exists_eq_left', Json.equal_str, Json.str.injEq]
  exact ⟨_, walks, rfl⟩

end Resaved

/-! ## The save -/

section

variable {task edited migrated updated checked : Json} {from_ : Stage} {revision epoch : ℤ}
  {gates gates' handoffs' risks moves moves' moved moved' : List Json} {time : Text}

/-- The fields of the task that a save compares, whichever fields the edit changed. -/
theorem get?_checked {digest : Json} (after : Migrated host edited.normalize moved' updated)
    (keeps : keepReceipts task migrated (updated.set "evidence_set_digest" digest) = .ok checked)
    {key : Text} (plain : key ∉ migratedFields host) (attack : text "falsification" ≠ key)
    (review : text "review_receipt" ≠ key) (set_ : text "evidence_set_digest" ≠ key) :
    checked.get? key = edited.normalize.get? key := by
  rw [get?_keepReceipts keeps attack review, Json.get?_set_of_ne _ set_, after.kept key plain]

/-- A save at the same stage stores a resaved task. -/
theorem resaved_storedTask {digest : Json}
    (again : Again task edited.normalize gates' handoffs' moves')
    (after : Migrated host edited.normalize moved' updated)
    (keeps : keepReceipts task migrated (updated.set "evidence_set_digest" digest) = .ok checked) :
    Resaved host task (storedTask host task checked revision time) gates' handoffs' moved'
      (revision + 1) time := by
  have object : checked.obj?.isSome = true :=
    (isSome_keepReceipts keeps).trans (Json.isSome_set.trans after.object)
  have auditObject : (keepAudit task checked).obj?.isSome = true :=
    touched_keepAudit.object.trans object
  have stored {key : Text} (stamped : key ∉ stampedFields) (plain : key ∉ migratedFields host)
      (attack : text "falsification" ≠ key) (review : text "review_receipt" ≠ key)
      (set_ : text "evidence_set_digest" ≠ key) :
      (storedTask host task checked revision time).get? key = edited.normalize.get? key := by
    rw [get?_storedTask stamped, get?_checked after keeps plain attack review set_]
  have others {key : Text} (stamped : key ∉ stampedFields) (attack : text "falsification" ≠ key)
      (review : text "review_receipt" ≠ key) (set_ : text "evidence_set_digest" ≠ key) :
      (storedTask host task checked revision time).get? key = updated.get? key := by
    rw [get?_storedTask stamped, get?_keepReceipts keeps attack review, Json.get?_set_of_ne _ set_]
  have apart : ∀ key ∈ resavedFields, key ∉ stampedFields ∧ key ∉ migratedFields host ∧
      text "falsification" ≠ key ∧ text "review_receipt" ≠ key ∧
      text "evidence_set_digest" ≠ key ∧ key ∉ againFields := by
    simp [resavedFields, stampedFields, migratedFields, migrationDefaults, againFields]
  have audited : checked.get? "final_audit_complete" = edited.normalize.get? "final_audit_complete" :=
    get?_checked after keeps (by simp [migratedFields, migrationDefaults]) (by simp) (by simp)
      (by simp)
  exact {
    object := isSome_reseal.trans (Json.isSome_set.trans (Json.isSome_set.trans auditObject))
    schema := by
      rw [Json.get, Json.getD, others (by simp [stampedFields]) (by simp) (by simp) (by simp)]
      exact after.schema
    kept := fun key member => by
      obtain ⟨stamped, plain, attack, review, set_, same⟩ := apart key member
      rw [stored stamped plain attack review set_, again.kept key same]
    tdd := by
      rw [others (by simp [stampedFields]) (by simp) (by simp) (by simp), after.tdd]
      rfl
    gates_ := (stored (by simp [stampedFields]) (by simp [migratedFields, migrationDefaults])
      (by simp) (by simp) (by simp)).trans again.gates_
    handoffs_ := (stored (by simp [stampedFields]) (by simp [migratedFields, migrationDefaults])
      (by simp) (by simp) (by simp)).trans again.handoffs_
    moves_ := (others (by simp [stampedFields]) (by simp) (by simp) (by simp)).trans after.moves_
    child := by
      rw [stored (by simp [stampedFields]) (by simp [migratedFields, migrationDefaults])
        (by simp) (by simp) (by simp)]
      exact again.child
    audited := by
      rw [storedTask, sealTask, reseal, Json.get?_set_of_ne _ (by simp),
        Json.get?_set_of_ne _ (by simp), Json.get?_set_of_ne _ (by simp)]
      unfold keepAudit
      split
      · rw [Json.get?_erase _ (by simp), Json.get?_set object, if_pos rfl]
        exact Or.inr rfl
      · rw [audited]
        exact again.audited
    material := by
      rw [others (by simp [stampedFields]) (by simp) (by simp) (by simp)]
      refine (after.defaults (text "material_claim", .bool true) (by simp [migrationDefaults])
        (by simp)).trans ?_
      rw [Json.getD, again.kept _ (by simp [againFields]), Json.getD]
    revision_ := by
      rw [storedTask, sealTask, reseal, Json.get?_set_of_ne _ (by simp),
        Json.get?_set_of_ne _ (by simp), Json.get?_set auditObject, if_pos rfl]
    updated := by
      rw [storedTask, sealTask, reseal, Json.get?_set_of_ne _ (by simp),
        Json.get?_set (Json.isSome_set.trans auditObject), if_pos rfl]
    integrity := by
      rw [storedTask, TaskSchema.stateDigest, sealTask, reseal, erase_set_self]
      exact Json.get_set_self (Json.isSome_set.trans (Json.isSome_set.trans auditObject)) }

/-- A task that was edited at its stage continues the task before, when that continues itself and
the moves are the same. -/
theorem validateAppendOnly_again {handoffs more : List Json} {digest : Json} {change : Json → Json}
    (situation : Situation host id task from_ revision epoch gates risks moves)
    (again : Again task edited.normalize (gates.map change) (handoffs ++ more) moves')
    (before : Migrated host task moved migrated)
    (after : Migrated host edited.normalize moved' updated)
    (keeps : keepReceipts task migrated (updated.set "evidence_set_digest" digest) = .ok checked)
    (handoffsAre : task.get? "child_history" = some (.arr handoffs))
    (walked : Json.equalItems (moved'.take moved.length) moved = true)
    (named : ∀ gate, (change gate).get? "id" = gate.get? "id")
    (isObject : ∀ gate, (change gate).obj?.isSome = gate.obj?.isSome)
    (same : ∀ gate earlier, sameGate (change gate) earlier = sameGate gate earlier)
    (comparable : Comparable task) : validateAppendOnly migrated checked = .ok () := by
  obtain ⟨decisions, _, evidence, listed⟩ := situation.listed
  have facts := valid_of_validateTask situation.valid
  have itself := (validateAppendOnly_self situation.valid before).mpr comparable
  have old {key : Text} (plain : key ∉ migratedFields host) : migrated.get? key = task.get? key :=
    before.kept key plain
  have new {key : Text} (plain : key ∉ migratedFields host) (attack : text "falsification" ≠ key)
      (review : text "review_receipt" ≠ key) (set_ : text "evidence_set_digest" ≠ key) :
      checked.get? key = edited.normalize.get? key := get?_checked after keeps plain attack review set_
  have apart : ∀ key ∈ immutableFields ++ [text "decisions", "risks", "change_epoch"],
      key ∉ migratedFields host ∧ text "falsification" ≠ key ∧ text "review_receipt" ≠ key ∧
      text "evidence_set_digest" ≠ key ∧ key ∉ againFields := by
    simp [immutableFields, migratedFields, migrationDefaults, againFields]
  have kept : ∀ key ∈ immutableFields ++ [text "decisions", "risks", "change_epoch"],
      checked.get? key = migrated.get? key := by
    intro key member
    obtain ⟨plain, attack, review, set_, spared⟩ := apart key member
    rw [new plain attack review set_, old plain, again.kept key spared]
  obtain ⟨record, cycles, there, contract⟩ := before.cycles facts.tdd
  have tdd : checked.get? "tdd" = some record := by
    rw [get?_keepReceipts keeps (by simp) (by simp), Json.get?_set_of_ne _ (by simp), after.tdd,
      ← there, before.tdd, Json.getD, again.kept _ (by simp [againFields]), Json.getD]
  have cyclesIs := fetchD_cycles there contract.cyclesAre
  have epochIs : migrated.get? "change_epoch" = some (.int epoch) :=
    (old (by simp [migratedFields, migrationDefaults])).trans situation.epochIs
  have risksIs : migrated.get? "risks" = some (.arr risks) :=
    (old (by simp [migratedFields, migrationDefaults])).trans listed.risksIs
  refine (@validateAppendOnly_iff_self migrated checked cycles cycles ?_ ?_ cyclesIs
    (fetchD_cycles tdd contract.cyclesAre) le_rfl Iff.rfl
    (validateEpochChange_of_le epochIs epochIs le_rfl (by omega))
    (validateEpochChange_of_le epochIs ((kept _ (by simp)).trans epochIs) le_rfl (by omega))
    ?_ ?_).mpr itself
  · intro field member
    rw [Json.get, Json.getD, kept field (List.mem_append_left _ member), Json.get, Json.getD]
  · have history : checked.get? "child_history" = some (.arr (handoffs ++ more)) :=
      (new (by simp [migratedFields, migrationDefaults]) (by simp) (by simp) (by simp)).trans
        again.handoffs_
    have movesAre : checked.get? "transitions" = some (.arr moved') := by
      rw [get?_keepReceipts keeps (by simp) (by simp), Json.get?_set_of_ne _ (by simp), after.moves_]
    simp only [List.forall_mem_cons, List.not_mem_nil, false_implies, implies_true, and_true]
    refine ⟨extends_kept (kept _ (by simp)), ?_, extends_longer before.moves_ movesAre walked⟩
    refine extends_longer ?_ history (equalItems_take_append _ _)
    rw [old (by simp [migratedFields, migrationDefaults]), handoffsAre]
  · intro deleted rewritten
    refine validateEntries_map named isObject same
      ((old (by simp [migratedFields, migrationDefaults])).trans listed.gatesIs) ?_
    rw [new (by simp [migratedFields, migrationDefaults]) (by simp) (by simp) (by simp),
      again.gates_]
  · intro deleted rewritten
    refine @validateEntries_map "risks" sameRisk deleted rewritten migrated checked
      (fun risk => risk) risks (fun _ => rfl) (fun _ => rfl) (fun _ _ => rfl) risksIs ?_
    rw [kept _ (by simp), risksIs, List.map_id']

/-- What `_save_locked` computes for a task that was edited at its stage, when its ledger, its
waivers, its receipts and the stored task are valid. -/
theorem prepare_again {files : TaskFiles} {records : List Json}
    (situation : Situation host id task from_ revision epoch gates risks moves)
    (again : Again task edited.normalize gates' handoffs' moves')
    (after : Migrated host edited.normalize moved' updated)
    (migrates : migrate host task = .ok migrated) (updates : migrate host edited = .ok updated)
    (ledger : Evidence.loadEvidence host id files true = .ok records)
    (waived : ∀ gate ∈ gates', validateWaiver host records (.str id) (.int epoch) gate = .ok ())
    (head : validateHead records task updated = .ok ())
    (keeps : keepReceipts task migrated (updated.set "evidence_set_digest"
      (.str (evidenceSetDigest host records))) = .ok checked)
    (appends : validateAppendOnly migrated checked = .ok ())
    (attacked : checked.get "falsification" ≠ .null →
      validateBoundFalsification host checked false = .ok ())
    (reviewed : checked.get "review_receipt" ≠ .null → validateBoundReview host checked = .ok ())
    (valid : TaskSchema.validateTask host (storedTask host task checked revision time) (some id) =
      .ok ()) :
    prepare host files task edited revision time =
      .ok (migrated, storedTask host task checked revision time) := by
  have idIs : task.get "id" = .str id := (valid_of_validateTask situation.valid).id_
  have fromAgain {key : Text} (plain : key ∉ migratedFields host) (spared : key ∉ againFields) :
      updated.get? key = task.get? key := (after.kept key plain).trans (again.kept key spared)
  have updatedId : updated.get "id" = .str id := by
    rw [Json.get, Json.getD, fromAgain (by simp [migratedFields, migrationDefaults])
      (by simp [againFields])]
    exact idIs
  have gatesIs : itemsOf updated "gates" = .ok gates' := by
    rw [itemsOf, Json.getD, after.kept _ (by simp [migratedFields, migrationDefaults]), again.gates_]
    rfl
  have epochIs : updated.getD "change_epoch" (.int 0) = .int epoch := by
    rw [Json.getD, fromAgain (by simp [migratedFields, migrationDefaults]) (by simp [againFields]),
      situation.epochIs]
    rfl
  have here : (task.get "revision").equal (.int revision) = true := by
    rw [get_of_get? situation.revisionIs]
    exact Json.int_equal_int.mpr rfl
  have same : (Json.str id).equal (.str id) = true := Json.equal_str.mpr rfl
  have waivers : gates'.forM (validateWaiver host records (.str id) (.int epoch)) = .ok () :=
    forM_eq_ok.mpr waived
  simp only [prepare, bind_eq_ok, require_eq_ok, exists_const, here, true_and, migrates,
    updates, Except.ok.injEq, exists_eq_left', updatedId, idIs, same, Json.str?, Option.getD_some,
    ledger, gatesIs, epochIs, waivers, head, keeps, ite_then_eq_ok]
  exact ⟨(), appends, attacked, reviewed, (), valid, rfl⟩

end

/-! ## Tasks at rest -/

/-- A field with a default after a migration. -/
theorem get?_migrate_default {task migrated : Json} (done : migrate host task = .ok migrated)
    {field : Text × Json} (member : field ∈ migrationDefaults host) :
    migrated.get? field.1 = some (if field.1 = text "tdd" then
      withDefaults (task.normalize.getD "tdd" (.obj (Fields.ofPairs TaskSchema.emptyTdd)))
        TaskSchema.emptyTdd
      else task.normalize.getD field.1 field.2) := by
  rw [migrate] at done
  simp only [bind_eq_ok, require_eq_ok, exists_const] at done
  obtain ⟨schema, is, _, done⟩ := done
  obtain ⟨object, rfl⟩ := fetch_eq_ok.mp is
  generalize currentIs : (if (task.normalize.get "schema").equal (.int 4) = true then task.normalize
    else task.normalize.set "schema" (.int 4)) = current at done
  have currentObject : current.obj?.isSome = true := by
    rw [← currentIs]
    split
    · exact object
    · exact Json.isSome_set.trans object
  have nodup : ((migrationDefaults host).map (·.1)).Nodup := by simp [migrationDefaults]
  have filled {key : Text} {default : Json} (inside : (key, default) ∈ migrationDefaults host) :
      (withDefaults current (migrationDefaults host)).get? key =
        some (task.normalize.getD key default) := by
    have other : text "schema" ≠ key := by
      rintro rfl
      simp [migrationDefaults] at inside
    rw [get?_withDefaults_of_mem currentObject nodup inside, Json.getD, Json.getD, ← currentIs]
    split
    · rfl
    · rw [Json.get?_set_of_ne _ other]
  have filledObject : (withDefaults current (migrationDefaults host)).obj?.isSome = true :=
    isSome_withDefaults.trans currentObject
  rw [get_of_get? (filled (by simp [migrationDefaults] :
    (text "tdd", Json.obj (Fields.ofPairs TaskSchema.emptyTdd)) ∈ migrationDefaults host))] at done
  generalize completeIs : (withDefaults current (migrationDefaults host)).set "tdd" (withDefaults
    (task.normalize.getD "tdd" (.obj (Fields.ofPairs TaskSchema.emptyTdd)))
    TaskSchema.emptyTdd) = complete at done
  have complete_ : complete.get? field.1 = some (if field.1 = text "tdd" then
      withDefaults (task.normalize.getD "tdd" (.obj (Fields.ofPairs TaskSchema.emptyTdd)))
        TaskSchema.emptyTdd
      else task.normalize.getD field.1 field.2) := by
    rw [← completeIs, Json.get?_set filledObject, filled member]
    by_cases tdd : field.1 = text "tdd"
    · rw [if_pos tdd.symm, if_pos tdd]
    · rw [if_neg (Ne.symm tdd), if_neg tdd]
  have apart : text "transitions" ≠ field.1 ∧ text "integrity_sha256" ≠ field.1 := by
    revert field
    simp [migrationDefaults]
  rw [← complete_]
  split at done
  · cases done
    rw [sealTask, reseal, Json.get?_set_of_ne _ apart.2]
  · obtain ⟨moved, _, done⟩ := bind_eq_ok.mp done
    cases done
    rw [sealTask, reseal, Json.get?_set_of_ne _ apart.2, Json.get?_set_of_ne _ apart.1]
  · simp only [bind_eq_ok, require_eq_ok, exists_const] at done
    obtain ⟨_, _, _, done⟩ := done
    cases done
    rw [sealTask, reseal, Json.get?_set_of_ne _ apart.2]

theorem isSome_get?_set {value item : Json} {key other : Text} (object : value.obj?.isSome = true)
    (there : (value.get? other).isSome = true) : ((value.set key item).get? other).isSome = true := by
  rw [Json.get?_set object]
  split
  · rfl
  · exact there

/-- A save drops no field with its receipts. -/
theorem isSome_get?_keepReceipts {current migrated updated checked : Json} {key : Text}
    (keeps : keepReceipts current migrated updated = .ok checked)
    (object : updated.obj?.isSome = true) (there : (updated.get? key).isSome = true) :
    (checked.get? key).isSome = true := by
  have drops {field : Text} {changed : Bool} {value : Json} (object : value.obj?.isSome = true)
      (there : (value.get? key).isSome = true) :
      ((dropReceipt field changed current value).get? key).isSome = true := by
    unfold dropReceipt
    split
    · exact isSome_get?_set object there
    · exact there
  simp only [keepReceipts, bind_eq_ok] at keeps
  obtain ⟨_, _, _, _, is⟩ := keeps
  cases is
  exact drops (isSome_dropReceipt.trans object) (drops object there)

/-- A task as a save left it: what the save asked for holds of the stored task. -/
structure Resting (host : Host) (id : Text) (disk : TaskDisk) (task : Json) (records : List Json) :
    Prop where
  settled : Settled host id task
  ledger : Evidence.loadEvidence host id disk.files true = .ok records
  head : (Evidence.headOf records).equal (task.get "evidence_head") = true
  digest : task.get? "evidence_set_digest" = some (.str (evidenceSetDigest host records))
  waived : ∀ gate ∈ itemsUnder task "gates",
    validateWaiver host records (.str id) (task.get "change_epoch") gate = .ok ()
  comparable : Comparable task
  attacked : task.get "falsification" ≠ .null → validateBoundFalsification host task false = .ok ()
  reviewed : task.get "review_receipt" ≠ .null → validateBoundReview host task = .ok ()
  complete : ∀ field ∈ migrationDefaults host, (task.get? field.1).isSome = true
  anchored : ∀ anchor, loadAnchor host id disk false = .ok (some anchor) →
    ∃ number, (anchor.get "revision").int? = some number ∧ 0 ≤ number

/-- The fields that only a save sets tell the receipts no difference. -/
theorem alike_storedTask {current checked : Json} {expected : ℤ} {time : Text} :
    Alike (storedTask host current checked expected time) checked := by
  have gets {key : Text} (absent : key ∉ stampedFields) :
      (storedTask host current checked expected time).get key = checked.get key :=
    get_storedTask absent
  refine ⟨⟨?_, get?_storedTask (by simp [stampedFields]), ?_⟩,
    get?_storedTask (by simp [stampedFields])⟩
  · simp only [List.forall_mem_cons]
    exact ⟨gets (by simp [stampedFields]), gets (by simp [stampedFields]),
      gets (by simp [stampedFields]), gets (by simp [stampedFields]),
      gets (by simp [stampedFields]), by simp⟩
  · rw [currentTddCycle, gets (by simp [stampedFields]), ← currentTddCycle]

/-- A task whose cycles a save kept continues itself. -/
theorem comparable_of_kept {task old new : Json} (valid : Valid host id task)
    (same : cyclesOf old = cyclesOf new) (cycles : cyclesOf new = cyclesOf task)
    (appends : validateAppendOnly old new = .ok ()) : Comparable task := by
  simp only [validateAppendOnly, bind_eq_ok] at appends
  obtain ⟨_, _, _, _, after, fetched, rest⟩ := appends
  obtain ⟨_, rfl⟩ := fetchD_eq_ok.mp fetched
  split at rest
  · cases rest
  · next news is =>
      simp only [bind_eq_ok, require_eq_ok, exists_const] at rest
      obtain ⟨_, _, changes, _⟩ := rest
      have newsIs : cyclesOf new = news := by
        rw [cyclesOf, listD, is]
        rfl
      have olds : (listD (old.getD "tdd" (.obj [])) "cycles").arr?.getD [] = news :=
        same.trans newsIs
      rw [olds] at changes
      have formed : ∀ cycle ∈ news, Assurance.CycleFormed host cycle := by
        intro cycle member
        rw [← newsIs, cycles] at member
        cases found : task.get? "tdd" with
        | none =>
            rw [cyclesOf, Json.getD, found] at member
            cases member
        | some record =>
            obtain ⟨listed, contract⟩ := validateTdd_eq_ok.mp (valid.tdd record found)
            rw [cyclesOf_eq found contract.cyclesAre] at member
            exact (TaskSchema.validateCycle_iff.mp (contract.each cycle member)).1
      rw [Comparable, ← cycles, newsIs]
      exact (validateCycleChanges_self formed).mp changes

/-- A save that keeps the cycles of a task leaves the task at rest. -/
theorem resting_of_saveLocked {disk after : TaskDisk} {current edited stored : Json} {expected : ℤ}
    {tick : ℕ} (valid : Valid host id current)
    (tdd : edited.normalize.get? "tdd" = current.normalize.get? "tdd")
    (done : saveLocked host disk current edited expected (host.entropy.now tick) =
      .ok (stored, after)) : ∃ records, Resting host id after stored records := by
  obtain ⟨prior, priorName, name, saved⟩ := saved_of_saveLocked valid done
  have idIs : (current.get "id").str?.getD [] = id := by
    rw [valid.id_]
    rfl
  rw [saveLocked] at done
  simp only [bind_eq_ok, require_eq_ok, exists_const] at done
  obtain ⟨⟨migrated, stored'⟩, prepares, _, _, _, _, _, _, _, is⟩ := done
  cases is
  obtain ⟨updated, checked, records, prepared, storedIs⟩ := prepare_eq_ok prepares
  subst storedIs
  have settled := settled_of_prepared valid prepared
  have object := isSome_migrate prepared.updates
  have alike := @alike_storedTask host current checked expected (host.entropy.now tick)
  have fromUpdated {key : Text} (attack : text "falsification" ≠ key)
      (review : text "review_receipt" ≠ key) (set_ : text "evidence_set_digest" ≠ key)
      (stamped : key ∉ stampedFields) :
      (storedTask host current checked expected (host.entropy.now tick)).get? key =
        updated.get? key := by
    rw [get?_storedTask stamped, get?_keepReceipts prepared.keeps attack review,
      Json.get?_set_of_ne _ set_]
  have receipts {key : Text} (stamped : key ∉ stampedFields) :
      (storedTask host current checked expected (host.entropy.now tick)).get key =
        checked.get key := get_storedTask stamped
  have cycles : cyclesOf (storedTask host current checked expected (host.entropy.now tick)) =
      cyclesOf updated := by
    rw [cyclesOf, Json.getD, fromUpdated (by simp) (by simp) (by simp) (by simp [stampedFields]),
      cyclesOf, Json.getD]
  have cyclesChecked : cyclesOf checked = cyclesOf updated := by
    rw [cyclesOf, Json.getD, get?_keepReceipts prepared.keeps (by simp) (by simp),
      Json.get?_set_of_ne _ (by simp), cyclesOf, Json.getD]
  have member : (text "tdd", Json.obj (Fields.ofPairs TaskSchema.emptyTdd)) ∈
      migrationDefaults host := by simp [migrationDefaults]
  have cyclesKept : cyclesOf migrated = cyclesOf updated := by
    have before := get?_migrate_default prepared.migrates member
    have after := get?_migrate_default prepared.updates member
    dsimp only at before after
    rw [if_pos rfl, Json.getD, ← tdd, ← Json.getD] at before
    rw [if_pos rfl, ← before] at after
    rw [cyclesOf, Json.getD, ← after, cyclesOf, Json.getD]
  refine ⟨records, settled, ?_, ?_, ?_, ?_, ?_, ?_, ?_, ?_, ?_⟩
  · have loads := prepared.loads
    rw [idIs] at loads
    exact loads
  · have heads := prepared.heads
    rw [validateHead, require_bind_eq_ok] at heads
    rw [Json.get, Json.getD, fromUpdated (by simp) (by simp) (by simp) (by simp [stampedFields])]
    exact heads.1
  · rw [get?_storedTask (by simp [stampedFields]), get?_keepReceipts prepared.keeps (by simp) (by simp),
      Json.get?_set object, if_pos rfl]
  · intro gate inside
    obtain ⟨gates, listed, waived⟩ := prepared.waived
    obtain ⟨gates', _, gatesAre, _⟩ := settled.valid.named
    obtain ⟨epoch, epochIs, _⟩ := settled.valid.epoch
    have epochThere := get?_of_get_int epochIs
    rw [itemsUnder_eq gatesAre] at inside
    rw [fromUpdated (by simp) (by simp) (by simp) (by simp [stampedFields])] at gatesAre epochThere
    rw [itemsOf, Json.getD, gatesAre] at listed
    cases listed
    have here := forM_eq_ok.mp waived gate inside
    rw [valid.id_, Json.getD, epochThere] at here
    rw [epochIs]
    exact here
  · exact comparable_of_kept settled.valid (cyclesKept.trans cyclesChecked.symm)
      (cyclesChecked.trans cycles.symm) prepared.appends
  · intro present
    rw [receipts (by simp [stampedFields])] at present
    rw [alike.toBound.validateBoundFalsification (receipts (by simp [stampedFields]))]
    exact prepared.attacked present
  · intro present
    rw [receipts (by simp [stampedFields])] at present
    rw [alike.validateBoundReview (receipts (by simp [stampedFields]))]
    exact prepared.reviewed present
  · intro field inside
    have there : (updated.get? field.1).isSome = true := by
      rw [get?_migrate_default prepared.updates inside]
      rfl
    have named : field.1 ∉ stampedFields := by
      revert field
      simp [migrationDefaults, stampedFields]
    rw [get?_storedTask named]
    exact isSome_get?_keepReceipts prepared.keeps (Json.isSome_set.trans object)
      (isSome_get?_set object there)
  · intro anchor loads
    obtain ⟨rfl, _⟩ := saved.loadAnchor_iff.mp loads
    exact ⟨expected + 1, by rw [saved.follows.getRevision]; rfl, saved.follows.low⟩

/-! ## Handoffs -/

/-- The fields that a handoff changes. -/
def handedFields : List Text := ["child_history", "active_child", "final_audit_complete"]

/-- A task whose active child was handed off, as it is read back. -/
structure Handed (task handed : Json) (handoffs : List Json) : Prop where
  object : handed.obj?.isSome = true
  kept : ∀ key ∉ handedFields, handed.get? key = task.get? key
  handoffs_ : handed.get? "child_history" = some (.arr handoffs)
  child : handed.get? "active_child" = some .null
  audited : handed.get? "final_audit_complete" = task.get? "final_audit_complete" ∨
    handed.get? "final_audit_complete" = some (.bool false)

theorem Handed.again {task handed : Json} {gates handoffs moves : List Json}
    (hands : Handed task handed handoffs) (gatesAre : task.get? "gates" = some (.arr gates))
    (movesAre : task.get? "transitions" = some (.arr moves)) :
    Again task handed gates handoffs moves where
  object := hands.object
  kept key spared := by
    refine hands.kept key fun inside => spared ?_
    simp only [handedFields, List.mem_cons, List.not_mem_nil, or_false] at inside
    rcases inside with rfl | rfl | rfl <;> simp [againFields]
  gates_ := (hands.kept _ (by simp [handedFields])).trans gatesAre
  handoffs_ := hands.handoffs_
  moves_ := (hands.kept _ (by simp [handedFields])).trans movesAre
  child := by
    rw [hands.child]
    rfl
  audited := hands.audited

/-- A migration keeps the fields of a task at rest, but for its seal. -/
theorem get?_migrated_resting {disk : TaskDisk} {task next migrated : Json} {records moves : List Json}
    (resting : Resting host id disk task records) (migration : Migrated host next moves migrated)
    (movesAre : task.get? "transitions" = some (.arr moves)) {key : Text}
    (same : next.get? key = task.get? key) (apart : key ∉ [text "schema", "integrity_sha256"]) :
    migrated.get? key = task.get? key := by
  by_cases default : key ∈ (migrationDefaults host).map (·.1)
  · obtain ⟨field, member, rfl⟩ := List.mem_map.mp default
    obtain ⟨value, there⟩ := Option.isSome_iff_exists.mp (resting.complete field member)
    by_cases tdd : field.1 = text "tdd"
    · rw [tdd] at same there ⊢
      obtain ⟨cycles, contract⟩ := validateTdd_eq_ok.mp (resting.settled.valid.tdd value there)
      rw [migration.tdd, Json.getD, same, there, Option.getD_some, withDefaults_eq contract.complete]
    · rw [migration.defaults field member tdd, Json.getD, same, there, Option.getD_some]
  · by_cases moved : key = text "transitions"
    · rw [moved, migration.moves_, movesAre]
    · refine (migration.kept key fun inside => ?_).trans same
      rcases List.mem_append.mp inside with changed | defaulted
      · simp only [List.mem_cons, List.not_mem_nil, or_false] at changed apart
        rcases changed with is | is | is | is
        · exact apart (Or.inl is)
        · exact default (by rw [is]; simp [migrationDefaults])
        · exact moved is
        · exact apart (Or.inr is)
      · exact default defaulted

/-- No receipt is dropped when what the receipts are bound to stays. -/
theorem keepReceipts_bound {current migrated updated : Json} (bound : Bound migrated updated)
    (precheck : (migrated.getD "precheck" (.obj [])).obj?.isSome = true) :
    keepReceipts current migrated updated = .ok updated := by
  have bindings : ∃ found, reviewBindings migrated = .ok found := by
    rw [reviewBindings]
    simp only [fetch_eq_ok.mpr ⟨precheck, rfl⟩, ok_bind]
    exact ⟨_, rfl⟩
  obtain ⟨found, is⟩ := bindings
  have same := bound.reviewBindings.symm.trans is
  have stays {field : Text} {value : Json} : dropReceipt field (!true) current value = value := by
    simp [dropReceipt]
  rw [keepReceipts]
  simp only [bound.falsificationBindings, Json.equalItems_self, stays, is, same, ok_bind]
  rfl

section

variable {workspace task edited : Json} {disk : TaskDisk} {records handoffs more : List Json}
  {revision : ℤ} {time : Text}

/-- A task at rest and its handoff, each after its migration. -/
structure Handing (host : Host) (task edited migrated updated : Json) (moves : List Json) : Prop where
  movesAre : task.get? "transitions" = some (.arr moves)
  migrates : migrate host task = .ok migrated
  updates : migrate host edited = .ok updated
  before : Migrated host task moves migrated
  after : Migrated host edited.normalize moves updated

theorem handing_of_resting (resting : Resting host id disk task records)
    (valid : TaskSchema.validateTask host task (some id) = .ok ())
    (handed : Handed task edited.normalize handoffs) :
    ∃ migrated updated moves, Handing host task edited migrated updated moves := by
  obtain ⟨_, _, _, _, _, moves, situation⟩ := situation_of_valid resting.settled.plain valid
  obtain ⟨_, _, _, listed⟩ := situation.listed
  obtain ⟨moves', _, movesAre, _, _, keys⟩ := resting.settled.moves
  have same : moves' = moves := by simpa using movesAre.symm.trans listed.movesIs
  rw [same] at movesAre keys
  obtain ⟨moved, migrated, numbers, migrates, before, _⟩ := migrated_of_situation situation
  -- The moves of a task that was saved are numbered already.
  have kept := migrateMoves_eq keys numbers
  rw [kept] at numbers before
  obtain ⟨updated, updates, after⟩ := @migrated_of_moves host edited moves moves handed.object
    (fun tdd found => by
      rw [handed.kept _ (by simp [handedFields])] at found
      obtain ⟨cycles, contract⟩ := validateTdd_eq_ok.mp (resting.settled.valid.tdd tdd found)
      exact contract.object)
    ((handed.kept _ (by simp [handedFields])).trans movesAre) numbers
  exact ⟨migrated, updated, moves, movesAre, migrates, updates, before, after⟩

section

variable {migrated updated : Json} {moves : List Json}

/-- The task that is compared: the digest of the evidence is the one that the save before set. -/
theorem Handing.checked (handing : Handing host task edited migrated updated moves)
    (resting : Resting host id disk task records) (handed : Handed task edited.normalize handoffs)
    {key : Text} (apart : key ∉ [text "schema", "integrity_sha256"]) (spared : key ∉ handedFields) :
    (updated.set "evidence_set_digest" (.str (evidenceSetDigest host records))).get? key =
      task.get? key := by
  rw [Json.get?_set handing.after.object]
  split
  · next is =>
      rw [← is]
      exact resting.digest.symm
  · exact get?_migrated_resting resting handing.after handing.movesAre (handed.kept key spared) apart

/-- The receipts are bound to the same as before. -/
theorem Handing.bound (handing : Handing host task edited migrated updated moves)
    (resting : Resting host id disk task records) (handed : Handed task edited.normalize handoffs) :
    Bound task (updated.set "evidence_set_digest" (.str (evidenceSetDigest host records))) := by
  have same {key : Text} (apart : key ∉ [text "schema", "integrity_sha256"])
      (spared : key ∉ handedFields) : task.get key =
        (updated.set "evidence_set_digest" (.str (evidenceSetDigest host records))).get key := by
    rw [Json.get, Json.getD, Json.get, Json.getD, handing.checked resting handed apart spared]
  refine ⟨?_, (handing.checked resting handed (by simp) (by simp [handedFields])).symm, ?_⟩
  · simp only [List.forall_mem_cons]
    exact ⟨same (by simp) (by simp [handedFields]), same (by simp) (by simp [handedFields]),
      same (by simp) (by simp [handedFields]), same (by simp) (by simp [handedFields]),
      same (by simp) (by simp [handedFields]), by simp⟩
  · rw [currentTddCycle, same (by simp) (by simp [handedFields]), ← currentTddCycle]

theorem Handing.keeps (handing : Handing host task edited migrated updated moves)
    (resting : Resting host id disk task records) (handed : Handed task edited.normalize handoffs)
    (precheck : (task.get "precheck").obj?.isSome = true) :
    keepReceipts task migrated
        (updated.set "evidence_set_digest" (.str (evidenceSetDigest host records))) =
      .ok (updated.set "evidence_set_digest" (.str (evidenceSetDigest host records))) := by
  have old {key : Text} (apart : key ∉ [text "schema", "integrity_sha256"]) :
      migrated.get? key = task.get? key :=
    get?_migrated_resting resting handing.before handing.movesAre rfl apart
  have oldGet {key : Text} (apart : key ∉ [text "schema", "integrity_sha256"]) :
      migrated.get key = task.get key := by
    rw [Json.get, Json.getD, Json.get, Json.getD, old apart]
  have later := handing.bound resting handed
  refine keepReceipts_bound ⟨?_, (old (by simp)).trans later.precheck, ?_⟩ ?_
  · have gets := later.gets
    simp only [List.forall_mem_cons] at gets ⊢
    obtain ⟨first, second, third, fourth, fifth, _⟩ := gets
    exact ⟨(oldGet (by simp)).trans first, (oldGet (by simp)).trans second,
      (oldGet (by simp)).trans third, (oldGet (by simp)).trans fourth,
      (oldGet (by simp)).trans fifth, by simp⟩
  · rw [currentTddCycle, oldGet (by simp), ← currentTddCycle]
    exact later.cycle
  · rw [Json.getD, old (by simp)]
    rw [Json.get, Json.getD] at precheck
    cases is : task.get? "precheck" with
    | none => rfl
    | some value =>
        rw [is] at precheck
        exact precheck

/-- What `_save_locked` computes for the handoff of the active child of a task at rest. -/
theorem Handing.prepares (handing : Handing host task edited migrated updated moves)
    (resting : Resting host id disk task records)
    (valid : TaskSchema.validateTask host task (some id) = .ok ())
    (handed : Handed task edited.normalize (handoffs ++ more))
    (handoffsAre : task.get? "child_history" = some (.arr handoffs))
    (revisionIs : task.get "revision" = .int revision) (timely : strip time ≠ [])
    (handoffIds : ∃ ids, (handoffs ++ more).mapM handoffKey = .ok ids ∧ distinct ids = .ok true)
    (handoffsValid : ∀ handoff ∈ more, TaskSchema.validateHandoff handoff = .ok ()) :
    prepare host disk.files task edited revision time = .ok (migrated, storedTask host task
      (updated.set "evidence_set_digest" (.str (evidenceSetDigest host records))) revision time) := by
  obtain ⟨header, _, receipts, _, _, history, _⟩ := validateTask_eq_ok.mp valid
  obtain ⟨from_, revision', epoch, gates, risks, moves', situation⟩ :=
    situation_of_valid resting.settled.plain valid
  obtain ⟨decisions, handoffs', evidence, listed⟩ := situation.listed
  have numbered : revision' = revision := by
    have is := get_of_get? situation.revisionIs
    rw [revisionIs, Json.int.injEq] at is
    exact is.symm
  have sameMoves : moves' = moves := by simpa using listed.movesIs.symm.trans handing.movesAre
  have sameHandoffs : handoffs' = handoffs := by
    simpa using listed.handoffsIs.symm.trans handoffsAre
  rw [numbered, sameMoves] at situation
  rw [sameMoves, sameHandoffs] at listed
  have low := situation.low
  have again := handed.again listed.gatesIs listed.movesIs
  have keeps := handing.keeps resting handed situation.precheck
  have bound := handing.bound resting handed
  have checked {key : Text} (apart : key ∉ [text "schema", "integrity_sha256"])
      (spared : key ∉ handedFields) := handing.checked resting handed apart spared
  have checkedGet {key : Text} (apart : key ∉ [text "schema", "integrity_sha256"])
      (spared : key ∉ handedFields) :
      (updated.set "evidence_set_digest" (.str (evidenceSetDigest host records))).get key =
        task.get key := by
    rw [Json.get, Json.getD, Json.get, Json.getD, checked apart spared]
  have resaved := @resaved_storedTask host task edited migrated updated _ revision gates _ _ moves
    time _ again handing.after keeps
  have appends := @validateAppendOnly_again host id task edited migrated updated _ from_ revision
    epoch gates risks moves moves moves moves handoffs more _ (fun gate => gate) situation
    (by rw [List.map_id']; exact again) handing.before handing.after keeps handoffsAre
    (by rw [List.take_length, Json.equalItems_self]) (fun _ => rfl) (fun _ => rfl) (fun _ _ => rfl)
    resting.comparable
  have storedGet {key : Text} (stamped : key ∉ stampedFields)
      (apart : key ∉ [text "schema", "integrity_sha256"]) (spared : key ∉ handedFields) :
      (storedTask host task (updated.set "evidence_set_digest"
        (.str (evidenceSetDigest host records))) revision time).get key = task.get key := by
    rw [get_storedTask stamped, checkedGet apart spared]
  have fromHanded {key : Text} (other : text "evidence_set_digest" ≠ key)
      (plain : key ∉ migratedFields host) :
      (updated.set "evidence_set_digest" (.str (evidenceSetDigest host records))).get? key =
        edited.normalize.get? key := by
    rw [Json.get?_set_of_ne _ other, handing.after.kept _ plain]
  have longer := (fromHanded (by simp) (by simp [migratedFields, migrationDefaults])).trans
    handed.handoffs_
  have childless : (storedTask host task (updated.set "evidence_set_digest"
      (.str (evidenceSetDigest host records))) revision time).get "active_child" = .null := by
    rw [get_storedTask (by simp [stampedFields])]
    exact get_of_get? ((fromHanded (by simp)
      (by simp [migratedFields, migrationDefaults])).trans handed.child)
  refine prepare_again situation again handing.after handing.migrates handing.updates
    resting.ledger ?_ (validateHead_kept resting.ledger resting.head ?_) keeps appends ?_ ?_ ?_
  · intro gate member
    have waived := resting.waived gate (by rwa [itemsUnder_eq listed.gatesIs])
    rw [get_of_get? situation.epochIs] at waived
    exact waived
  · rw [Json.get, Json.getD, get?_migrated_resting resting handing.after handing.movesAre
      (handed.kept _ (by simp [handedFields])) (by simp), ← Json.getD, ← Json.get]
  · intro present
    have same := @checkedGet "falsification" (by simp) (by simp [handedFields])
    rw [same] at present
    rw [← bound.validateBoundFalsification same.symm]
    exact resting.attacked present
  · intro present
    have same := @checkedGet "review_receipt" (by simp) (by simp [handedFields])
    rw [same] at present
    exact bound.validateBoundReview same.symm handoffsAre longer (resting.reviewed present)
  · refine validateTask_eq_ok.mpr ⟨resaved.header (by omega) timely header, ?_, ?_,
      resaved.lists listed listed.gateIds ?_ handoffIds ?_, ?_, ?_, ?_⟩
    · intro tdd found
      rw [get?_storedTask (by simp [stampedFields]),
        checked (by simp) (by simp [handedFields])] at found
      exact resting.settled.valid.tdd tdd found
    · have formed := TaskSchema.validateReceipts_iff.mp receipts
      have digests := formed.digests
      have attack := @storedGet "falsification" (by simp [stampedFields]) (by simp)
        (by simp [handedFields])
      have review := @storedGet "review_receipt" (by simp [stampedFields]) (by simp)
        (by simp [handedFields])
      refine TaskSchema.validateReceipts_iff.mpr ⟨?_, ?_, ?_⟩
      · simp only [List.forall_mem_cons, List.not_mem_nil, false_implies, implies_true, and_true]
          at digests ⊢
        rw [storedGet (by simp [stampedFields]) (by simp) (by simp [handedFields]),
          storedGet (by simp [stampedFields]) (by simp) (by simp [handedFields]),
          storedGet (by simp [stampedFields]) (by simp) (by simp [handedFields])]
        exact digests
      · rw [attack]
        exact formed.falsification
      · rw [review]
        exact formed.review
    · intro gate member
      have keepsWaiver := (validateGate_renumbered (listed.gates_ gate member)
        resting.settled.schema).mp (listed.gates_ gate member)
      exact (validateGate_renumbered (listed.gates_ gate member) resaved.schema).mpr keepsWaiver
    · intro handoff member
      rcases List.mem_append.mp member with old | new
      · exact listed.handoffs_ handoff old
      · exact handoffsValid handoff new
    · exact TaskSchema.validateActiveChild_iff.mpr fun present => absurd childless present
    · refine resaved.history situation.stateIs ?_
      simp only [TaskSchema.validateHistory, resting.settled.versioned, bind_eq_ok, require_eq_ok,
        requireList_iff, handing.movesAre, Option.some.injEq, Json.arr.injEq, exists_eq_left',
        get_of_get? situation.stateIs, Json.equal_str, Json.str.injEq] at history
      obtain ⟨reached, walks, is⟩ := history
      rw [is]
      exact walks
    · exact fun _ => Json.equal_str.mpr resaved.integrity

/-- The store takes the handoff of the active child of a task at rest. -/
theorem saveLocked_handed (resting : Resting host id disk task records)
    (loads : load host workspace id disk = .ok task)
    (handed : Handed task edited.normalize (handoffs ++ more))
    (handoffsAre : task.get? "child_history" = some (.arr handoffs))
    (revisionIs : task.get "revision" = .int revision) (timely : strip time ≠ [])
    (handoffIds : ∃ ids, (handoffs ++ more).mapM handoffKey = .ok ids ∧ distinct ids = .ok true)
    (handoffsValid : ∀ handoff ∈ more, TaskSchema.validateHandoff handoff = .ok ()) :
    ∃ result, saveLocked host disk task edited revision time = .ok result := by
  obtain ⟨_, _, _, valid, _⟩ := load_eq_ok.mp loads
  have facts := valid_of_validateTask valid
  have idIs : (task.get "id").str?.getD [] = id := by
    rw [facts.id_]
    rfl
  have low : 0 ≤ revision := by
    obtain ⟨number, is, low⟩ := facts.revision
    rw [revisionIs, Json.int.injEq] at is
    omega
  obtain ⟨_, _, _, _, _, _, situation⟩ := situation_of_valid resting.settled.plain valid
  obtain ⟨migrated, updated, moves, handing⟩ := handing_of_resting resting valid handed
  have prepares := handing.prepares resting valid handed handoffsAre revisionIs timely handoffIds
    handoffsValid
  have carried : migrated.get "revision" = .int revision := by
    rw [Json.get, Json.getD, get?_migrated_resting resting handing.before handing.movesAre rfl (by simp),
      ← Json.getD, ← Json.get, revisionIs]
  have gatesAre := resting.settled.valid.named
  obtain ⟨gates, _, gatesAre, _⟩ := gatesAre
  have resaved := @resaved_storedTask host task edited migrated updated _ revision gates _ _ moves
    time _ (handed.again gatesAre handing.movesAre) handing.after
    (handing.keeps resting handed situation.precheck)
  have anchorable : Anchorable host id disk task (historyName (revision + 1)
      (anchorDigest host (newAnchor host (storedTask host task (updated.set "evidence_set_digest"
        (.str (evidenceSetDigest host records))) revision time)
          (some (priorAnchor host disk migrated))))) :=
    ⟨resting.anchored, fun legacy => absurd resting.settled.versioned (by simp [legacy])⟩
  obtain ⟨after, saved⟩ := (saveLocked_iff_of_prepare loads idIs revisionIs low prepares carried
    (get_of_get? resaved.revision_)).mpr anchorable
  exact ⟨_, saved⟩

end

end

end StateStore

end CarbonLab.Aegis
