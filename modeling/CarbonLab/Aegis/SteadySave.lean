import CarbonLab.Aegis.Implementable

/-!
# Saves within an epoch

A call that starts no epoch keeps the gates, the risks and the evidence of a task.  What its
save asks for is said here once: of the waivers and moves, of the receipts that are left, of
the development record, and of the history.
-/

namespace CarbonLab.Aegis

namespace StateStore

open StateMachine

variable {host : Host} {id : Text}

/-! ## The stored task -/

/-- The entries and the evidence of an epoch. -/
def epochFields : List Text := ["gates", "risks", "verification_evidence", "verification_epoch"]

/-- A task that was stored at the epoch of the task before. -/
structure Steady (host : Host) (task next : Json) (goal : Stage) (epoch revision : ℤ) (time : Text)
    (moves : List Json) : Prop where
  headed : Headed task next goal epoch revision time
  kept : ∀ key ∈ epochFields, next.get? key = task.get? key
  material : next.get? "material_claim" = some (task.getD "material_claim" (.bool true))
  audited : next.get? "final_audit_complete" = task.get? "final_audit_complete" ∨
    next.get? "final_audit_complete" = some (.bool false)
  moves_ : next.get? "transitions" = some (.arr moves)
  integrity : next.get "integrity_sha256" = .str (TaskSchema.stateDigest host next)

section

variable {task next : Json} {goal : Stage} {epoch revision : ℤ} {time : Text}
  {gates risks decisions handoffs evidence moves earlier : List Json}

/-- The lists of a steady task are valid when schema 4 accepts its local waivers. -/
theorem Steady.lists_iff (steady : Steady host task next goal epoch revision time moves)
    (listed : Listed task gates risks decisions handoffs evidence earlier) :
    TaskSchema.validateLists next = .ok () ↔ ∀ gate ∈ gates, KeepsWaiver gate := by
  have gateIff {gate : Json} (member : gate ∈ gates) :=
    validateGate_renumbered (listed.gates_ gate member) steady.headed.schema
  have same {key : String} (member : text key ∈ epochFields) : next.get? key = task.get? key :=
    steady.kept _ member
  rw [validateLists_eq_ok]
  constructor
  · rintro ⟨gates', _, _, _, _, _, listed'⟩ gate member
    have found := listed'.gatesIs
    rw [same (by simp [epochFields]), listed.gatesIs, Option.some.injEq, Json.arr.injEq] at found
    subst found
    exact (gateIff member).mp (listed'.gates_ _ member)
  · intro keeps
    refine ⟨gates, risks, decisions, handoffs, evidence, moves, ?_⟩
    exact {
      gatesIs := (same (by simp [epochFields])).trans listed.gatesIs
      risksIs := (same (by simp [epochFields])).trans listed.risksIs
      decisionsIs := (steady.headed.kept _ (by simp [keptFields])).trans listed.decisionsIs
      handoffsIs := (steady.headed.kept _ (by simp [keptFields])).trans listed.handoffsIs
      evidenceIs := (same (by simp [epochFields])).trans listed.evidenceIs
      movesIs := steady.moves_
      gateIds := listed.gateIds
      riskIds := listed.riskIds
      decisionIds := listed.decisionIds
      handoffIds := listed.handoffIds
      evidenceIds := listed.evidenceIds
      single := listed.single
      verified := by
        rw [Json.get, Json.getD, same (by simp [epochFields])]
        exact listed.verified
      flags := by
        simp only [List.forall_mem_cons, steady.material]
        refine ⟨?_, ?_, by simp⟩
        · rcases steady.audited with is | is
          · rw [is]
            exact listed.flags "final_audit_complete" (by simp)
          · rw [is]
            rfl
        · have flag := listed.flags "material_claim" (by simp)
          rw [Json.getD]
          cases is : task.get? "material_claim" with
          | none => rfl
          | some value =>
              rw [is] at flag
              exact flag
      gates_ := fun gate member => (gateIff member).mpr (keeps gate member)
      risks_ := listed.risks_
      decisions_ := listed.decisions_
      handoffs_ := listed.handoffs_ }

/-- What `validate_task` asks of a steady task. -/
theorem Steady.valid_iff (steady : Steady host task next goal epoch revision time moves)
    (low : 0 ≤ epoch) (low' : 0 ≤ revision) (timely : strip time ≠ [])
    (valid : TaskSchema.validateTask host task (some id) = .ok ())
    (listed : Listed task gates risks decisions handoffs evidence earlier)
    (idle : (task.get "active_child").truthy = false) :
    TaskSchema.validateTask host next (some id) = .ok () ↔
      (∀ gate ∈ gates, KeepsWaiver gate) ∧
        TaskSchema.validateMoves true "CREATED" (-1) moves = .ok goal.name ∧
        (∀ tdd, next.get? "tdd" = some tdd → TaskSchema.validateTdd host id tdd = .ok ()) ∧
        TaskSchema.validateReceipts host id next = .ok () := by
  obtain ⟨header, _, _, _, child, _, _⟩ := validateTask_eq_ok.mp valid
  rw [validateTask_eq_ok, steady.lists_iff listed, steady.headed.history_iff steady.moves_]
  constructor
  · rintro ⟨_, tdd, receipts, keeps, _, walks, _⟩
    exact ⟨keeps, walks, tdd, receipts⟩
  · rintro ⟨keeps, walks, tdd, receipts⟩
    exact ⟨steady.headed.header low low' timely header, tdd, receipts, keeps,
      steady.headed.child child idle, walks, fun _ => Json.equal_str.mpr steady.integrity⟩

end

/-! ## The edit -/

/-- The fields that a call may change without starting an epoch. -/
def withinFields : List Text :=
  ["state", "previous_state", "block_reason", "transitions", "tdd", "implementation_digest",
    "diff_digest", "falsification", "review_receipt", "final_audit_complete",
    "final_audit_workspace"]

/-- A task that was edited within its epoch, as it is read back. -/
structure Within (task within : Json) (goal : Stage) (moves : List Json) : Prop where
  object : within.obj?.isSome = true
  kept : ∀ key ∉ withinFields, within.get? key = task.get? key
  state : within.get? "state" = some (.str goal.name)
  previous : (within.get? "previous_state").isSome = true
  audited : within.get? "final_audit_complete" = task.get? "final_audit_complete" ∨
    within.get? "final_audit_complete" = some (.bool false)
  moves_ : within.get? "transitions" = some (.arr moves)

/-- The migration of a task and of its edit. -/
structure Edited (host : Host) (task within : Json) (goal : Stage) (moves moved moved' : List Json)
    (migrated updated : Json) : Prop where
  edits : Within task within goal moves
  before : Migrated host task moved migrated
  after : Migrated host within moved' updated

namespace Edited

variable {task within : Json} {goal : Stage} {moves moved moved' : List Json}
  {migrated updated : Json}

theorem kept (edited : Edited host task within goal moves moved moved' migrated updated) {key : Text}
    (spared : key ∉ withinFields) (plain : key ∉ migratedFields host) :
    updated.get? key = task.get? key :=
  (edited.after.kept key plain).trans (edited.edits.kept key spared)

theorem default (edited : Edited host task within goal moves moved moved' migrated updated)
    {field : Text × Json} (member : field ∈ migrationDefaults host) (other : field.1 ≠ text "tdd")
    (spared : field.1 ∉ withinFields) :
    updated.get? field.1 = some (task.getD field.1 field.2) := by
  rw [edited.after.defaults field member other, Json.getD, edited.edits.kept _ spared, Json.getD]

end Edited

/-- Only receipts are dropped. -/
theorem get?_dropReceipt {field key : Text} {changed : Bool} {current updated : Json}
    (differs : field ≠ key) :
    (dropReceipt field changed current updated).get? key = updated.get? key := by
  unfold dropReceipt
  split
  · exact Json.get?_set_of_ne _ differs
  · rfl

theorem isSome_dropReceipt {field : Text} {changed : Bool} {current updated : Json} :
    (dropReceipt field changed current updated).obj?.isSome = updated.obj?.isSome := by
  unfold dropReceipt
  split
  · exact Json.isSome_set
  · rfl

theorem get?_keepReceipts {current migrated updated checked : Json} {key : Text}
    (keeps : keepReceipts current migrated updated = .ok checked)
    (attack : text "falsification" ≠ key) (review : text "review_receipt" ≠ key) :
    checked.get? key = updated.get? key := by
  simp only [keepReceipts, bind_eq_ok] at keeps
  obtain ⟨_, _, _, _, is⟩ := keeps
  cases is
  rw [get?_dropReceipt review, get?_dropReceipt attack]

theorem isSome_keepReceipts {current migrated updated checked : Json}
    (keeps : keepReceipts current migrated updated = .ok checked) :
    checked.obj?.isSome = updated.obj?.isSome := by
  simp only [keepReceipts, bind_eq_ok] at keeps
  obtain ⟨_, _, _, _, is⟩ := keeps
  cases is
  rw [isSome_dropReceipt, isSome_dropReceipt]

/-! ## The save -/

section

variable {task within edited migrated updated checked : Json} {from_ goal : Stage}
  {revision epoch : ℤ} {gates risks moves moves' moved moved' : List Json} {time : Text}

/-- A save within an epoch stores a steady task. -/
theorem steady_storedTask (situation : Situation host id task from_ revision epoch gates risks moves)
    (pair : Edited host task within goal moves' moved moved' migrated updated) {digest : Json}
    (keeps : keepReceipts task migrated (updated.set "evidence_set_digest" digest) = .ok checked) :
    Steady host task (storedTask host task checked revision time) goal epoch (revision + 1) time
      moved' := by
  have object : checked.obj?.isSome = true :=
    (isSome_keepReceipts keeps).trans (Json.isSome_set.trans pair.after.object)
  have checkedKept {key : Text} (set_ : text "evidence_set_digest" ≠ key)
      (attack : text "falsification" ≠ key) (review : text "review_receipt" ≠ key) :
      checked.get? key = updated.get? key :=
    (get?_keepReceipts keeps attack review).trans (Json.get?_set_of_ne _ set_)
  have auditObject : (keepAudit task checked).obj?.isSome = true :=
    touched_keepAudit.object.trans object
  have apart : ∀ key ∈ keptFields ++ epochFields ++ [text "change_epoch"],
      key ∉ stampedFields ∧ key ∉ withinFields ∧ key ∉ migratedFields host ∧
        text "evidence_set_digest" ≠ key ∧ text "falsification" ≠ key ∧
        text "review_receipt" ≠ key := by
    simp [keptFields, epochFields, stampedFields, withinFields, migratedFields, migrationDefaults]
  have kept : ∀ key ∈ keptFields ++ epochFields ++ [text "change_epoch"],
      (storedTask host task checked revision time).get? key = task.get? key := by
    intro key member
    obtain ⟨stamped, spared, plain, set_, attack, review⟩ := apart key member
    rw [get?_storedTask stamped, checkedKept set_ attack review, pair.kept spared plain]
  have after {key : Text} (stamped : key ∉ stampedFields) (plain : key ∉ migratedFields host)
      (set_ : text "evidence_set_digest" ≠ key) (attack : text "falsification" ≠ key)
      (review : text "review_receipt" ≠ key) :
      (storedTask host task checked revision time).get? key = within.get? key := by
    rw [get?_storedTask stamped, checkedKept set_ attack review, pair.after.kept key plain]
  have audited : checked.get? "final_audit_complete" = within.get? "final_audit_complete" := by
    rw [checkedKept (by simp) (by simp) (by simp),
      pair.after.kept _ (by simp [migratedFields, migrationDefaults])]
  have dated : (storedTask host task checked revision time).get? "updated" = some (.str time) := by
    rw [storedTask, sealTask, reseal, Json.get?_set_of_ne _ (by simp),
      Json.get?_set (Json.isSome_set.trans auditObject), if_pos rfl]
  have movesAre : (storedTask host task checked revision time).get? "transitions" =
      some (.arr moved') := by
    rw [get?_storedTask (by simp [stampedFields]), checkedKept (by simp) (by simp) (by simp)]
    exact pair.after.moves_
  have auditIs : (storedTask host task checked revision time).get? "final_audit_complete" =
      within.get? "final_audit_complete" ∨
      (storedTask host task checked revision time).get? "final_audit_complete" =
        some (.bool false) := by
    rw [storedTask, sealTask, reseal, Json.get?_set_of_ne _ (by simp),
      Json.get?_set_of_ne _ (by simp), Json.get?_set_of_ne _ (by simp)]
    unfold keepAudit
    split
    · rw [Json.get?_erase _ (by simp), Json.get?_set object, if_pos rfl]
      exact Or.inr rfl
    · exact Or.inl audited
  have there : ∀ key ∈ TaskSchema.required, (task.get? key).isSome = true := by
    obtain ⟨header, _⟩ := validateTask_eq_ok.mp situation.valid
    simp only [TaskSchema.validateHeader, bind_eq_ok, require_eq_ok, exists_const] at header
    obtain ⟨_, _, _, _, complete, _⟩ := header
    intro key member
    have here := List.filter_eq_nil_iff.mp complete key member
    rw [Option.isNone_iff_eq_none] at here
    exact Option.isSome_iff_ne_none.mpr here
  exact {
    headed := {
      object := isSome_reseal.trans (Json.isSome_set.trans (Json.isSome_set.trans auditObject))
      schema := by
        rw [Json.get, Json.getD, get?_storedTask (by simp [stampedFields]),
          checkedKept (by simp) (by simp) (by simp)]
        exact pair.after.schema
      kept := fun key member => kept key (List.mem_append_left _ (List.mem_append_left _ member))
      tdd := by
        rw [get?_storedTask (by simp [stampedFields]), checkedKept (by simp) (by simp) (by simp),
          pair.after.tdd]
        rfl
      state := (after (by simp [stampedFields]) (by simp [migratedFields, migrationDefaults])
        (by simp) (by simp) (by simp)).trans pair.edits.state
      revision_ := by
        rw [storedTask, sealTask, reseal, Json.get?_set_of_ne _ (by simp),
          Json.get?_set_of_ne _ (by simp), Json.get?_set auditObject, if_pos rfl]
      epoch_ := (kept _ (by simp)).trans situation.epochIs
      updated := dated
      complete := by
        simp only [List.forall_mem_cons]
        refine ⟨?_, ?_, ?_, ?_, ?_, ?_, ?_, by simp⟩
        · rw [after (by simp [stampedFields]) (by simp [migratedFields, migrationDefaults])
            (by simp) (by simp) (by simp)]
          exact pair.edits.previous
        · rw [kept _ (by simp [epochFields])]
          exact there _ (by simp [TaskSchema.required])
        · rw [kept _ (by simp [epochFields])]
          exact there _ (by simp [TaskSchema.required])
        · rw [kept _ (by simp [epochFields])]
          exact there _ (by simp [TaskSchema.required])
        · rw [kept _ (by simp [epochFields])]
          exact there _ (by simp [TaskSchema.required])
        · rcases auditIs with is | is
          · rw [is]
            rcases pair.edits.audited with is | is
            · rw [is]
              exact there _ (by simp [TaskSchema.required])
            · rw [is]
              rfl
          · rw [is]
            rfl
        · rw [movesAre]
          rfl }
    kept := fun key member => kept key (List.mem_append_left _ (List.mem_append_right _ member))
    material := by
      rw [get?_storedTask (by simp [stampedFields]), checkedKept (by simp) (by simp) (by simp)]
      exact @Edited.default _ _ _ _ _ _ _ _ _ pair (text "material_claim", .bool true)
        (by simp [migrationDefaults]) (by simp) (by simp [withinFields])
    audited := by
      rcases auditIs with is | is
      · rw [is]
        exact pair.edits.audited
      · exact Or.inr is
    moves_ := movesAre
    integrity := by
      rw [storedTask, TaskSchema.stateDigest, sealTask, reseal, erase_set_self]
      exact Json.get_set_self (Json.isSome_set.trans (Json.isSome_set.trans auditObject)) }

/-- The receipts that are left of an edit can be told. -/
theorem keepReceipts_ok (situation : Situation host id task from_ revision epoch gates risks moves)
    (pair : Edited host task within goal moves' moved moved' migrated updated) (digest : Json) :
    ∃ checked, keepReceipts task migrated (updated.set "evidence_set_digest" digest) =
      .ok checked := by
  have precheck : (task.getD "precheck" (.obj [])).obj?.isSome = true := by
    have there := situation.precheck
    rw [Json.get, Json.getD] at there
    rw [Json.getD]
    cases is : task.get? "precheck" with
    | none => rfl
    | some value =>
        rw [is] at there
        exact there
  have bindings {value : Json} (same : value.get? "precheck" = task.get? "precheck") :
      ∃ found, reviewBindings value = .ok found := by
    rw [reviewBindings, Json.getD, same, ← Json.getD]
    simp only [fetch_eq_ok.mpr ⟨precheck, rfl⟩, ok_bind]
    exact ⟨_, rfl⟩
  obtain ⟨before, beforeIs⟩ := @bindings migrated
    (pair.before.kept _ (by simp [migratedFields, migrationDefaults]))
  obtain ⟨after, afterIs⟩ := @bindings (dropReceipt "falsification"
      (!Json.equalItems (falsificationBindings migrated)
        (falsificationBindings (updated.set "evidence_set_digest" digest))) task
      (updated.set "evidence_set_digest" digest)) (by
    rw [get?_dropReceipt (by simp), Json.get?_set_of_ne _ (by simp),
      pair.kept (by simp [withinFields]) (by simp [migratedFields, migrationDefaults])])
  rw [keepReceipts]
  simp only [beforeIs, afterIs, ok_bind]
  exact ⟨_, rfl⟩

/-- What `validate_task` asks of the receipts is asked of the task that is checked. -/
theorem validateReceipts_storedTask :
    TaskSchema.validateReceipts host id (storedTask host task checked revision time) = .ok () ↔
      TaskSchema.validateReceipts host id checked = .ok () := by
  have same : ∀ key ∈ [text "implementation_digest", "diff_digest", "evidence_set_digest",
      "falsification", "review_receipt"],
      (storedTask host task checked revision time).get key = checked.get key := by
    refine fun key member => get_storedTask fun inside => ?_
    simp only [List.mem_cons, List.not_mem_nil, or_false] at member
    rcases member with rfl | rfl | rfl | rfl | rfl <;> simp [stampedFields] at inside
  simp only [List.forall_mem_cons] at same
  simp only [TaskSchema.validateReceipts_iff, TaskSchema.receiptsFormed_iff, List.forall_mem_cons,
    List.not_mem_nil, false_implies, implies_true, and_true, same]

/-- What `_save_locked` asks of a task that was edited within its epoch. -/
theorem prepare_within_iff {files : TaskFiles} {records : List Json} {result : Json × Json}
    (situation : Situation host id task from_ revision epoch gates risks moves)
    (pair : Edited host task within goal moves' moved moved' migrated updated)
    (migrates : migrate host task = .ok migrated) (updates : migrate host edited = .ok updated)
    (timely : strip time ≠ []) (idle : (task.get "active_child").truthy = false)
    (ledger : Evidence.loadEvidence host id files true = .ok records)
    (heads : (Evidence.headOf records).equal (task.get "evidence_head") = true)
    (keeps : keepReceipts task migrated (updated.set "evidence_set_digest"
      (.str (evidenceSetDigest host records))) = .ok checked) :
    prepare host files task edited revision time = .ok result ↔
      (∀ gate ∈ gates, WaivedAt records (.str id) epoch gate ∧ KeepsWaiver gate) ∧
        TaskSchema.validateMoves true "CREATED" (-1) moved' = .ok goal.name ∧
        validateAppendOnly migrated checked = .ok () ∧
        (∀ tdd, updated.get? "tdd" = some tdd → TaskSchema.validateTdd host id tdd = .ok ()) ∧
        (checked.get "falsification" ≠ .null → validateBoundFalsification host checked false = .ok ()) ∧
        (checked.get "review_receipt" ≠ .null → validateBoundReview host checked = .ok ()) ∧
        TaskSchema.validateReceipts host id checked = .ok () ∧
        result = (migrated, storedTask host task checked revision time) := by
  obtain ⟨decisions, handoffs, evidence, listed⟩ := situation.listed
  have idIs : task.get "id" = .str id := (valid_of_validateTask situation.valid).id_
  have updatedId : updated.get "id" = .str id := by
    rw [Json.get, Json.getD, pair.kept (by simp [withinFields])
      (by simp [migratedFields, migrationDefaults])]
    exact idIs
  have gatesIs : itemsOf updated "gates" = .ok gates := by
    rw [itemsOf, Json.getD, pair.kept (by simp [withinFields])
      (by simp [migratedFields, migrationDefaults]), listed.gatesIs]
    rfl
  have epochIs : updated.getD "change_epoch" (.int 0) = .int epoch := by
    rw [Json.getD, pair.kept (by simp [withinFields]) (by simp [migratedFields, migrationDefaults]),
      situation.epochIs]
    rfl
  have headIs : updated.get "evidence_head" = task.get "evidence_head" :=
    get_of_get? (@Edited.default _ _ _ _ _ _ _ _ _ pair (text "evidence_head", .null)
      (by simp [migrationDefaults]) (by simp) (by simp [withinFields]))
  have head := validateHead_kept ledger heads headIs
  have waivers : (gates.forM (validateWaiver host records (.str id) (.int epoch)) = .ok ()) ↔
      ∀ gate ∈ gates, WaivedAt records (.str id) epoch gate := by
    rw [forM_eq_ok]
    exact forall₂_congr fun gate member => validateWaiver_iff (listed.gate_object member)
  have steady := @steady_storedTask host id task within migrated updated checked from_ goal revision
    epoch gates risks moves moves' moved moved' time situation pair _ keeps
  have low := situation.low
  have valid := steady.valid_iff situation.low' (by omega) timely situation.valid listed idle
  have tddIs : (storedTask host task checked revision time).get? "tdd" = updated.get? "tdd" := by
    rw [get?_storedTask (by simp [stampedFields]), get?_keepReceipts keeps (by simp) (by simp),
      Json.get?_set_of_ne _ (by simp)]
  rw [tddIs, validateReceipts_storedTask] at valid
  have here : (task.get "revision").equal (.int revision) = true := by
    rw [get_of_get? situation.revisionIs]
    exact Json.int_equal_int.mpr rfl
  have same : (Json.str id).equal (.str id) = true := Json.equal_str.mpr rfl
  simp only [prepare, bind_eq_ok, require_eq_ok, exists_const, here, true_and, migrates,
    updates, Except.ok.injEq, exists_eq_left', updatedId, idIs, same, Json.str?, Option.getD_some,
    ledger, gatesIs, epochIs, waivers, head, keeps, ite_then_eq_ok]
  constructor
  · rintro ⟨waived, _, appends, attacked, reviewed, _, stored, is⟩
    obtain ⟨local_, walks, tdd, receipts⟩ := valid.mp stored
    exact ⟨fun gate member => ⟨waived gate member, local_ gate member⟩, walks, appends, tdd, attacked,
      reviewed, receipts, (Except.ok.inj is).symm⟩
  · rintro ⟨gates_, walks, appends, tdd, attacked, reviewed, receipts, rfl⟩
    exact ⟨fun gate member => (gates_ gate member).1, (), appends, attacked, reviewed, (),
      valid.mpr ⟨fun gate member => (gates_ gate member).2, walks, tdd, receipts⟩, rfl⟩

end

/-! ## Receipts -/

/-- What holds of some item holds of some item of a longer list. -/
theorem some_append {α : Type} {check : α → Except Raised Bool} {items more : List α}
    (found : some_ check items = .ok true) : some_ check (items ++ more) = .ok true := by
  induction items with
  | nil => cases found
  | cons item items ih =>
      rw [some_, bind_eq_ok] at found
      obtain ⟨passes, checked, rest⟩ := found
      rw [List.cons_append, some_, checked, ok_bind]
      cases passes with
      | true => rfl
      | false => exact ih rest

/-- Two tasks that give the receipts the same to be bound to. -/
structure Bound (first second : Json) : Prop where
  gets : ∀ key ∈ [text "id", "change_epoch", "implementation_digest", "diff_digest",
    "evidence_set_digest"], first.get key = second.get key
  precheck : first.get? "precheck" = second.get? "precheck"
  cycle : (currentTddCycle first).map (·.get "cycle_sha256") =
    (currentTddCycle second).map (·.get "cycle_sha256")

/-- Two tasks that the receipts tell no difference of. -/
structure Alike (first second : Json) : Prop extends Bound first second where
  handoffs : first.get? "child_history" = second.get? "child_history"

namespace Bound

variable {first second : Json}

theorem getD_precheck (bound : Bound first second) :
    first.getD "precheck" (.obj []) = second.getD "precheck" (.obj []) := by
  rw [Json.getD, bound.precheck, Json.getD]

theorem falsificationBindings (bound : Bound first second) :
    StateStore.falsificationBindings first = StateStore.falsificationBindings second := by
  simp only [StateStore.falsificationBindings, bound.gets "id" (by simp),
    bound.gets "change_epoch" (by simp), bound.gets "implementation_digest" (by simp),
    bound.gets "diff_digest" (by simp), bound.cycle]

theorem reviewBindings (bound : Bound first second) :
    StateStore.reviewBindings first = StateStore.reviewBindings second := by
  simp only [StateStore.reviewBindings, bound.falsificationBindings, bound.getD_precheck,
    bound.gets "evidence_set_digest" (by simp)]

theorem validateBoundFalsification (bound : Bound first second)
    (same : first.get "falsification" = second.get "falsification") {requireClean : Bool} :
    StateStore.validateBoundFalsification host first requireClean =
      StateStore.validateBoundFalsification host second requireClean := by
  have cycle := bound.cycle
  simp only [StateStore.validateBoundFalsification]
  cases left : currentTddCycle first with
  | none =>
      rw [left, Option.map_none, eq_comm, Option.map_eq_none_iff] at cycle
      rw [cycle]
  | some old =>
      rw [left, Option.map_some, eq_comm, Option.map_eq_some_iff] at cycle
      obtain ⟨new, right, digest⟩ := cycle
      simp only [right, falsified, same, bound.gets "id" (by simp), digest,
        bound.gets "change_epoch" (by simp), bound.gets "diff_digest" (by simp)]

/-- A review stays valid when more children are handed off. -/
theorem validateBoundReview (bound : Bound first second)
    (same : first.get "review_receipt" = second.get "review_receipt") {handoffs more : List Json}
    (before : first.get? "child_history" = some (.arr handoffs))
    (after : second.get? "child_history" = some (.arr (handoffs ++ more)))
    (valid : StateStore.validateBoundReview host first = .ok ()) :
    StateStore.validateBoundReview host second = .ok () := by
  have cycle := bound.cycle
  have entries : itemsOf first "child_history" = .ok handoffs := by
    rw [itemsOf, Json.getD, before]
    rfl
  have entries' : itemsOf second "child_history" = .ok (handoffs ++ more) := by
    rw [itemsOf, Json.getD, after]
    rfl
  simp only [StateStore.validateBoundReview, entries, entries'] at valid ⊢
  cases left : currentTddCycle first with
  | none =>
      rw [left] at valid
      cases valid
  | some old =>
      rw [left, Option.map_some, eq_comm, Option.map_eq_some_iff] at cycle
      obtain ⟨new, right, digest⟩ := cycle
      simp only [left, same, bound.gets "id" (by simp), bind_eq_ok, require_eq_ok, exists_const,
        ok_bind] at valid
      obtain ⟨present, owner, fetched, mine, expert, found, searched, handed, accepted, rest⟩ := valid
      simp only [right, bind_eq_ok, require_eq_ok, exists_const, ok_bind]
      refine ⟨present, owner, fetched, mine, expert, found, ?_, handed, accepted, ?_⟩
      · rw [handed] at searched ⊢
        exact some_append searched
      · simpa only [reviewed, digest, bound.getD_precheck, bound.gets "change_epoch" (by simp),
          bound.gets "diff_digest" (by simp), bound.gets "evidence_set_digest" (by simp)] using rest

end Bound

namespace Alike

variable {first second : Json}

theorem validateBoundReview (alike : Alike first second)
    (same : first.get "review_receipt" = second.get "review_receipt") :
    StateStore.validateBoundReview host first = StateStore.validateBoundReview host second := by
  have cycle := alike.cycle
  have handoffs : itemsOf first "child_history" = itemsOf second "child_history" := by
    rw [itemsOf, Json.getD, alike.handoffs, itemsOf, Json.getD]
  simp only [StateStore.validateBoundReview]
  cases left : currentTddCycle first with
  | none =>
      rw [left, Option.map_none, eq_comm, Option.map_eq_none_iff] at cycle
      rw [cycle]
  | some old =>
      rw [left, Option.map_some, eq_comm, Option.map_eq_some_iff] at cycle
      obtain ⟨new, right, digest⟩ := cycle
      simp only [right, reviewed, same, alike.gets "id" (by simp), digest, handoffs,
        alike.getD_precheck, alike.gets "change_epoch" (by simp),
        alike.gets "diff_digest" (by simp), alike.gets "evidence_set_digest" (by simp)]

end Alike

/-- A task that has no digest of its evidence has the digest of no evidence. -/
def withEvidenceSet (host : Host) (task : Json) : Json :=
  setDefault task "evidence_set_digest" (.str (host.sha256 []))

/-- Each receipt of a task is bound to something else than the task as it is now, or is valid
for it. -/
structure ReceiptsFit (host : Host) (task now : Json) : Prop where
  falsification : task.get "falsification" = .null ∨
    Json.equalItems (falsificationBindings (withEvidenceSet host task))
      (falsificationBindings now) = false ∨
    validateBoundFalsification host now false = .ok ()
  review : task.get "review_receipt" = .null ∨
    (∃ before after, reviewBindings (withEvidenceSet host task) = .ok before ∧
      reviewBindings now = .ok after ∧ Json.equalItems before after = false) ∨
    validateBoundReview host now = .ok ()

/-- A migration tells a task's receipts no difference. -/
theorem alike_migrated {task migrated : Json} {moved : List Json}
    (object : task.obj?.isSome = true) (before : Migrated host task moved migrated)
    (valid : ∀ tdd, task.get? "tdd" = some tdd → TaskSchema.validateTdd host id tdd = .ok ()) :
    Alike migrated (withEvidenceSet host task) := by
  have other {key : Text} (differs : text "evidence_set_digest" ≠ key) :
      (withEvidenceSet host task).get? key = task.get? key := get?_setDefault_of_ne differs
  have otherIs {key : Text} (differs : text "evidence_set_digest" ≠ key) :
      (withEvidenceSet host task).get key = task.get key := get_setDefault_of_ne differs
  have kept {key : Text} (plain : key ∉ migratedFields host) : migrated.get key = task.get key := by
    rw [Json.get, Json.getD, before.kept key plain, Json.get, Json.getD]
  have defaulted {key : Text} (member : (key, Json.null) ∈ migrationDefaults host)
      (other : key ≠ text "tdd") : migrated.get key = task.get key := by
    rw [Json.get, Json.getD, before.defaults _ member other]
    rfl
  refine ⟨⟨?_, ?_, congrArg _ ?_⟩, ?_⟩
  · simp only [List.forall_mem_cons, List.not_mem_nil, false_implies, implies_true, and_true]
    refine ⟨?_, ?_, ?_, ?_, ?_⟩
    · rw [otherIs (by simp), kept (by simp [migratedFields, migrationDefaults])]
    · rw [otherIs (by simp), kept (by simp [migratedFields, migrationDefaults])]
    · rw [otherIs (by simp), defaulted (by simp [migrationDefaults]) (by simp)]
    · rw [otherIs (by simp), defaulted (by simp [migrationDefaults]) (by simp)]
    · rw [withEvidenceSet, get_setDefault_self object]
      exact get_of_get? (before.defaults (text "evidence_set_digest", .str (host.sha256 []))
        (by simp [migrationDefaults]) (by simp))
  · rw [other (by simp), before.kept _ (by simp [migratedFields, migrationDefaults])]
  · have tdd := get_of_get? before.tdd
    rw [Json.getD] at tdd
    cases is : task.get? "tdd" with
    | none =>
        rw [is, Option.getD_none] at tdd
        have active : (migrated.get "tdd").get "active_cycle_id" = .null := by
          rw [tdd]
          refine get_of_get? ?_
          rw [get?_withDefaults_of_mem rfl (by simp [TaskSchema.emptyTdd]) (by
            simp [TaskSchema.emptyTdd] : (text "active_cycle_id", Json.null) ∈ TaskSchema.emptyTdd)]
          rfl
        have bare : task.get "tdd" = .null := by
          rw [Json.get, Json.getD, is]
          rfl
        rw [currentTddCycle, currentTddCycle, otherIs (by simp), active, bare]
        rfl
    | some given =>
        obtain ⟨cycles, contract⟩ := validateTdd_eq_ok.mp (valid given is)
        rw [is, Option.getD_some, withDefaults_eq contract.complete] at tdd
        rw [currentTddCycle, currentTddCycle, otherIs (by simp), tdd, get_of_get? is]
  · rw [other (by simp), before.kept _ (by simp [migratedFields, migrationDefaults])]

/-- A receipt of a valid task is null or an object. -/
theorem receipts_equal_self {task : Json}
    (valid : TaskSchema.validateReceipts host id task = .ok ()) :
    ∀ field ∈ [text "falsification", "review_receipt"],
      (task.get field).equal (task.get field) = true := by
  have formed := TaskSchema.validateReceipts_iff.mp valid
  have object {value : Json} (is : value ≠ .null → value.obj?.isSome = true) :
      value.equal value = true := by
    rw [Json.equal_self]
    by_cases absent : value = .null
    · rw [absent]
      rfl
    · obtain ⟨fields, same⟩ := Option.isSome_iff_exists.mp (is absent)
      rw [Json.obj?_eq_some.mp same]
      rfl
  simp only [List.forall_mem_cons, List.not_mem_nil, false_implies, implies_true, and_true]
  refine ⟨object fun present => (formed.falsification present).formed.object, object fun present => ?_⟩
  have intact := (formed.review present).1
  rw [Review.intact, Bool.and_eq_true] at intact
  exact intact.1

theorem get_dropReceipt {field : Text} {changed : Bool} {current updated : Json}
    (itself : (current.get field).equal (current.get field) = true)
    (same : updated.get field = current.get field) (object : updated.obj?.isSome = true) :
    ((dropReceipt field changed current updated).get field = .null ∧
        (current.get field = .null ∨ changed = true)) ∨
      ((dropReceipt field changed current updated).get field = current.get field ∧
        current.get field ≠ .null ∧ ¬ changed = true) := by
  unfold dropReceipt
  rw [same]
  split
  · next drops =>
      rw [Json.get_set_self object]
      exact Or.inl ⟨rfl, Or.inr drops.2.2⟩
  · next keeps =>
      rw [same]
      by_cases absent : current.get field = .null
      · exact Or.inl ⟨absent, Or.inl absent⟩
      · exact Or.inr ⟨rfl, absent, fun changes => keeps ⟨absent, itself, changes⟩⟩

theorem Alike.trans {first second third : Json} (left : Alike first second)
    (right : Alike second third) : Alike first third :=
  ⟨⟨fun key member => (left.gets key member).trans (right.gets key member),
    left.precheck.trans right.precheck, left.cycle.trans right.cycle⟩,
    left.handoffs.trans right.handoffs⟩

theorem alike_dropReceipt {field : Text} {changed : Bool} {current updated : Json}
    (receipt : field = text "falsification" ∨ field = text "review_receipt") :
    Alike (dropReceipt field changed current updated) updated := by
  have kept {key : Text} (attack : text "falsification" ≠ key) (review : text "review_receipt" ≠ key) :
      (dropReceipt field changed current updated).get? key = updated.get? key := by
    rcases receipt with rfl | rfl
    · exact get?_dropReceipt attack
    · exact get?_dropReceipt review
  have gets {key : Text} (attack : text "falsification" ≠ key) (review : text "review_receipt" ≠ key) :
      (dropReceipt field changed current updated).get key = updated.get key := by
    rw [Json.get, Json.getD, kept attack review, Json.get, Json.getD]
  refine ⟨⟨?_, kept (by simp) (by simp), ?_⟩, kept (by simp) (by simp)⟩
  · simp only [List.forall_mem_cons]
    exact ⟨gets (by simp) (by simp), gets (by simp) (by simp), gets (by simp) (by simp),
      gets (by simp) (by simp), gets (by simp) (by simp), by simp⟩
  · rw [currentTddCycle, gets (by simp) (by simp), ← currentTddCycle]

/-- What a save asks of the receipts that it keeps. -/
theorem receipts_iff {task migrated updated checked now : Json}
    (bound : falsificationBindings migrated = falsificationBindings (withEvidenceSet host task))
    (bound' : reviewBindings migrated = reviewBindings (withEvidenceSet host task))
    (itself : ∀ field ∈ [text "falsification", "review_receipt"],
      (task.get field).equal (task.get field) = true) (keeps : keepReceipts task migrated updated = .ok checked)
    (object : updated.obj?.isSome = true)
    (attack : updated.get "falsification" = task.get "falsification")
    (review : updated.get "review_receipt" = task.get "review_receipt") (alike : Alike updated now)
    (nowAttack : now.get "falsification" = task.get "falsification")
    (nowReview : now.get "review_receipt" = task.get "review_receipt") :
    ((checked.get "falsification" ≠ .null → validateBoundFalsification host checked false = .ok ()) ∧
      (checked.get "review_receipt" ≠ .null → validateBoundReview host checked = .ok ())) ↔
      ReceiptsFit host task now := by
  simp only [keepReceipts, bind_eq_ok, bound, bound'] at keeps
  obtain ⟨before, beforeIs, after, afterIs, is⟩ := keeps
  generalize attackedIs : dropReceipt "falsification" (!Json.equalItems
    (falsificationBindings (withEvidenceSet host task)) (falsificationBindings updated)) task updated = attacked at *
  have attackedAlike : Alike attacked updated := by
    rw [← attackedIs]
    exact alike_dropReceipt (Or.inl rfl)
  have attackedObject : attacked.obj?.isSome = true := by
    rw [← attackedIs, isSome_dropReceipt]
    exact object
  have attackedReview : attacked.get "review_receipt" = task.get "review_receipt" := by
    rw [← attackedIs, Json.get, Json.getD, get?_dropReceipt (by simp), ← Json.getD, ← Json.get, review]
  have checkedAlike : Alike checked now := by
    cases is
    exact (alike_dropReceipt (Or.inr rfl)).trans (attackedAlike.trans alike)
  have checkedAttack : checked.get "falsification" = attacked.get "falsification" := by
    cases is
    rw [Json.get, Json.getD, get?_dropReceipt (by simp), Json.get, Json.getD]
  rw [(attackedAlike.trans alike).toBound.reviewBindings] at afterIs
  have attackDrops := @get_dropReceipt "falsification" (!Json.equalItems
    (falsificationBindings (withEvidenceSet host task)) (falsificationBindings updated)) task updated
    (itself _ (by simp)) attack object
  have reviewDrops := @get_dropReceipt "review_receipt" (!Json.equalItems before after) task attacked
    (itself _ (by simp)) attackedReview attackedObject
  rw [attackedIs, ← checkedAttack, alike.toBound.falsificationBindings, Bool.not_eq_true'] at attackDrops
  have checkedIs := Except.ok.inj is
  rw [checkedIs, Bool.not_eq_true'] at reviewDrops
  have falsified : (checked.get "falsification" ≠ .null →
      validateBoundFalsification host checked false = .ok ()) ↔
      task.get "falsification" = .null ∨
        Json.equalItems (falsificationBindings (withEvidenceSet host task))
          (falsificationBindings now) = false ∨
        validateBoundFalsification host now false = .ok () := by
    rcases attackDrops with ⟨missing, dropped⟩ | ⟨same, filled, fits⟩
    · refine iff_of_true (fun filled => absurd missing filled) ?_
      rcases dropped with null | outdated
      · exact Or.inl null
      · exact Or.inr (Or.inl outdated)
    · rw [checkedAlike.toBound.validateBoundFalsification (same.trans nowAttack.symm), same]
      constructor
      · exact fun valid => Or.inr (Or.inr (valid filled))
      · rintro (null | outdated | valid) _
        · exact absurd null filled
        · exact absurd outdated fits
        · exact valid
  have reviewed_ : (checked.get "review_receipt" ≠ .null → validateBoundReview host checked = .ok ()) ↔
      task.get "review_receipt" = .null ∨
        (∃ before after, reviewBindings (withEvidenceSet host task) = .ok before ∧ reviewBindings now = .ok after ∧
          Json.equalItems before after = false) ∨
        validateBoundReview host now = .ok () := by
    rcases reviewDrops with ⟨absent, dropped⟩ | ⟨same, present, fits⟩
    · refine iff_of_true (fun present => absurd absent present) ?_
      rcases dropped with null | outdated
      · exact Or.inl null
      · exact Or.inr (Or.inl ⟨before, after, beforeIs, afterIs, outdated⟩)
    · rw [checkedAlike.validateBoundReview (same.trans nowReview.symm), same]
      constructor
      · exact fun valid => Or.inr (Or.inr (valid present))
      · rintro (null | ⟨before', after', beforeIs', afterIs', outdated⟩ | valid) _
        · exact absurd null present
        · cases beforeIs.symm.trans beforeIs'
          cases afterIs.symm.trans afterIs'
          exact absurd outdated fits
        · exact valid
  constructor
  · rintro ⟨left, right⟩
    exact ⟨falsified.mp left, reviewed_.mp right⟩
  · intro fits
    exact ⟨falsified.mpr fits.falsification, reviewed_.mpr fits.review⟩

section

variable {task within edited migrated updated checked : Json} {from_ goal : Stage}
  {revision epoch : ℤ} {gates risks moves moves' moved moved' : List Json} {time : Text}

/-- The receipts of a valid task stay well formed; the digests beside them are asked for again. -/
theorem validateReceipts_checked {digest : Json} (canonical : isSha256 digest = true)
    (valid : TaskSchema.validateReceipts host id task = .ok ())
    (keeps : keepReceipts task migrated (updated.set "evidence_set_digest" digest) = .ok checked)
    (object : updated.obj?.isSome = true)
    (attack : updated.get "falsification" = task.get "falsification" ∨
      updated.get "falsification" = .null)
    (review : updated.get "review_receipt" = task.get "review_receipt" ∨
      updated.get "review_receipt" = .null) :
    TaskSchema.validateReceipts host id checked = .ok () ↔
      TaskSchema.nullOr (updated.get "implementation_digest") isSha256 = true ∧
        TaskSchema.nullOr (updated.get "diff_digest") isSha256 = true := by
  obtain ⟨_, falsified, reviewed⟩ := TaskSchema.validateReceipts_iff.mp valid
  have kept {key : Text} (attack : text "falsification" ≠ key) (review : text "review_receipt" ≠ key)
      (set_ : text "evidence_set_digest" ≠ key) : checked.get key = updated.get key := by
    rw [Json.get, Json.getD, get?_keepReceipts keeps attack review, Json.get?_set_of_ne _ set_,
      Json.get, Json.getD]
  have setIs : checked.get "evidence_set_digest" = digest := by
    rw [Json.get, Json.getD, get?_keepReceipts keeps (by simp) (by simp), ← Json.getD, ← Json.get]
    exact Json.get_set_self object
  have receipt {field : Text} (member : field = text "falsification" ∨ field = text "review_receipt")
      (same : updated.get field = task.get field ∨ updated.get field = .null) :
      checked.get field = task.get field ∨ checked.get field = .null := by
    have here : (updated.set "evidence_set_digest" digest).get field = task.get field ∨
        (updated.set "evidence_set_digest" digest).get field = .null := by
      rw [Json.get_set_of_ne _ (by rcases member with rfl | rfl <;> simp)]
      exact same
    have touched := object
    rw [← @Json.isSome_set updated "evidence_set_digest" digest] at touched
    simp only [keepReceipts, bind_eq_ok] at keeps
    obtain ⟨_, _, _, _, is⟩ := keeps
    cases is
    have drops {field : Text} {changed : Bool} {value : Json} (object : value.obj?.isSome = true)
        (here : value.get field = task.get field ∨ value.get field = .null) :
        (dropReceipt field changed task value).get field = task.get field ∨
          (dropReceipt field changed task value).get field = .null := by
      unfold dropReceipt
      split
      · exact Or.inr (Json.get_set_self object)
      · exact here
    rcases member with rfl | rfl
    · rw [Json.get, Json.getD, get?_dropReceipt (by simp), ← Json.getD, ← Json.get]
      exact drops touched here
    · refine drops (isSome_dropReceipt.trans touched) ?_
      rw [Json.get, Json.getD, get?_dropReceipt (by simp), ← Json.getD, ← Json.get]
      exact here
  have attackIs := receipt (Or.inl rfl) attack
  have reviewIs := receipt (Or.inr rfl) review
  have set_ : TaskSchema.nullOr digest isSha256 = true := by
    rw [TaskSchema.nullOr, canonical, Bool.or_true]
  rw [TaskSchema.validateReceipts_iff, TaskSchema.receiptsFormed_iff]
  simp only [List.forall_mem_cons, kept (by simp : text "falsification" ≠
    text "implementation_digest") (by simp) (by simp), kept (by simp : text "falsification" ≠
    text "diff_digest") (by simp) (by simp), setIs, set_, true_and]
  constructor
  · rintro ⟨⟨implementation, diff, _⟩, _⟩
    exact ⟨implementation, diff⟩
  · rintro ⟨implementation, diff⟩
    refine ⟨⟨implementation, diff, by simp⟩, fun present => ?_, fun present => ?_⟩
    · rcases attackIs with is | is
      · rw [is] at present ⊢
        exact falsified present
      · exact absurd is present
    · rcases reviewIs with is | is
      · rw [is] at present ⊢
        exact reviewed present
      · exact absurd is present

/-- A task that was edited within its epoch continues the task before, when its cycles do and when
the task before continues itself. -/
theorem validateAppendOnly_within {more cycles cycles' : List Json} {digest record record' : Json}
    (situation : Situation host id task from_ revision epoch gates risks moves)
    (pair : Edited host task within goal moves' moved (moved ++ more) migrated updated)
    (keeps : keepReceipts task migrated (updated.set "evidence_set_digest" digest) = .ok checked)
    (there : migrated.get? "tdd" = some record) (cyclesAre : record.get? "cycles" = some (.arr cycles))
    (there' : updated.get? "tdd" = some record')
    (cyclesAre' : record'.get? "cycles" = some (.arr cycles'))
    (longer : cycles.length ≤ cycles'.length)
    (changes : validateCycleChanges cycles cycles' = .ok () ↔
      validateCycleChanges cycles cycles = .ok ()) :
    validateAppendOnly migrated checked = .ok () ↔ validateAppendOnly migrated migrated = .ok () := by
  obtain ⟨decisions, handoffs, evidence, listed⟩ := situation.listed
  have checkedKept {key : Text} (set_ : text "evidence_set_digest" ≠ key)
      (attack : text "falsification" ≠ key) (review : text "review_receipt" ≠ key) :
      checked.get? key = updated.get? key :=
    (get?_keepReceipts keeps attack review).trans (Json.get?_set_of_ne _ set_)
  have apart : ∀ key ∈ immutableFields ++ [text "decisions", "child_history", "gates", "risks",
      "change_epoch"], key ∉ withinFields ∧ key ∉ migratedFields host ∧
        text "evidence_set_digest" ≠ key ∧ text "falsification" ≠ key ∧
        text "review_receipt" ≠ key := by
    simp [immutableFields, withinFields, migratedFields, migrationDefaults]
  have old : ∀ key ∈ immutableFields ++ [text "decisions", "child_history", "gates", "risks",
      "change_epoch"], migrated.get? key = task.get? key :=
    fun key member => pair.before.kept key (apart key member).2.1
  have same : ∀ key ∈ immutableFields ++ [text "decisions", "child_history", "gates", "risks",
      "change_epoch"], checked.get? key = migrated.get? key := by
    intro key member
    obtain ⟨spared, plain, set_, attack, review⟩ := apart key member
    rw [checkedKept set_ attack review, pair.kept spared plain, old key member]
  have entries {field : Text} (member : field ∈ [text "gates", "risks"]) {items : List Json}
      (is : task.get? field = some (.arr items)) {kind : Json → Json → Bool} (deleted rewritten : Text) :
      validateEntries field kind deleted rewritten migrated checked =
        validateEntries field kind deleted rewritten migrated migrated := by
    have inside : field ∈ immutableFields ++ [text "decisions", "child_history", "gates", "risks",
        "change_epoch"] := by
      simp only [List.mem_cons, List.not_mem_nil, or_false] at member
      rcases member with rfl | rfl <;> simp
    have before : migrated.get? field = some (.arr items) := (old field inside).trans is
    exact @validateEntries_map field kind deleted rewritten migrated checked (fun entry => entry)
      items (fun _ => rfl) (fun _ => rfl) (fun _ _ => rfl) before
      (by rw [same field inside, before, List.map_id'])
  have epochIs : migrated.get? "change_epoch" = some (.int epoch) :=
    (old _ (by simp)).trans situation.epochIs
  refine @validateAppendOnly_iff_self migrated checked cycles cycles' ?_ ?_
    (fetchD_cycles there cyclesAre) ?_ longer changes
    (validateEpochChange_of_le epochIs epochIs le_rfl (by omega)) ?_ (entries (by simp) listed.gatesIs)
    (entries (by simp) listed.risksIs)
  · intro field member
    rw [Json.get, Json.getD, same field (List.mem_append_left _ member), Json.get, Json.getD]
  · have longer : checked.get? "transitions" = some (.arr (moved ++ more)) := by
      rw [checkedKept (by simp) (by simp) (by simp), pair.after.moves_]
    simp only [List.forall_mem_cons, List.not_mem_nil, false_implies, implies_true, and_true]
    exact ⟨extends_kept (same _ (by simp)), extends_kept (same _ (by simp)),
      extends_longer pair.before.moves_ longer (equalItems_take_append _ _)⟩
  · refine fetchD_cycles ?_ cyclesAre'
    rw [checkedKept (by simp) (by simp) (by simp), there']
  · refine validateEpochChange_of_le epochIs ?_ le_rfl (by omega)
    rw [same _ (by simp), epochIs]

/-- A valid task can be migrated. -/
theorem migrated_of_situation (situation : Situation host id task from_ revision epoch gates risks moves) :
    ∃ moved migrated, migrateMoves 1 0 moves = .ok moved ∧ migrate host task = .ok migrated ∧
      Migrated host task moved migrated ∧ endOf "CREATED" moved = from_.name := by
  obtain ⟨decisions, handoffs, evidence, listed⟩ := situation.listed
  have facts := valid_of_validateTask situation.valid
  obtain ⟨moved, numbers, ends⟩ := @migrateMoves_of_leads _ _ _ 1 0 situation.leads
  have plain : task.normalize = task := situation.plain
  obtain ⟨migrated, migrates, before⟩ := @migrated_of_moves host task moves moved
    (by rw [plain]; exact facts.object)
    (by
      rw [plain]
      intro tdd found
      obtain ⟨cycles, contract⟩ := validateTdd_eq_ok.mp (facts.tdd tdd found)
      exact contract.object)
    (by rw [plain]; exact listed.movesIs) numbers
  rw [plain] at before
  exact ⟨moved, migrated, numbers, migrates, before, ends⟩

/-- A task and its edit can be migrated. -/
theorem edited_of_within {more : List Json}
    (situation : Situation host id task from_ revision epoch gates risks moves)
    (edits : Within task edited.normalize goal (moves ++ more))
    (tddObject : ∀ tdd, edited.normalize.get? "tdd" = some tdd → tdd.obj?.isSome = true)
    (later : ∀ moved, migrateMoves 1 0 moves = .ok moved →
      migrateMoves 1 0 (moves ++ more) = .ok (moved ++ more)) :
    ∃ moved migrated updated, migrate host task = .ok migrated ∧ migrate host edited = .ok updated ∧
      Edited host task edited.normalize goal (moves ++ more) moved (moved ++ more) migrated updated ∧
      endOf "CREATED" moved = from_.name := by
  obtain ⟨moved, migrated, numbers, migrates, before, ends⟩ := migrated_of_situation situation
  obtain ⟨updated, updates, after⟩ := @migrated_of_moves host edited (moves ++ more) (moved ++ more)
    edits.object tddObject edits.moves_ (later moved numbers)
  exact ⟨moved, migrated, updated, migrates, updates, ⟨edits, before, after⟩, ends⟩

end

end StateStore

end CarbonLab.Aegis
