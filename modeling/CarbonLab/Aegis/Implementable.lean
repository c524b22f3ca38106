import CarbonLab.Aegis.Continuation
import CarbonLab.Aegis.EvidenceChain
import CarbonLab.Aegis.Frozen

/-!
# When an accepted implementation is stored

`validate_transition` does not look at waivers, and the save checks every waiver of the
constitution against the next epoch.  An accepted transition to an implementation is stored
exactly when the waivers are already bound to that epoch and the history of the task is one
that a save can continue.
-/

namespace CarbonLab.Aegis

namespace StateStore

open StateMachine

variable {host : Host} {id : Text}

/-! ## The task before -/

/-- A valid task with its parts. -/
structure Situation (host : Host) (id : Text) (task : Json) (from_ : Stage) (revision epoch : ℤ)
    (gates risks moves : List Json) : Prop where
  plain : task.Plain
  valid : TaskSchema.validateTask host task (some id) = .ok ()
  stateIs : task.get? "state" = some (.str from_.name)
  previous : (task.get? "previous_state").isSome = true
  revisionIs : task.get? "revision" = some (.int revision)
  low : 0 ≤ revision
  epochIs : task.get? "change_epoch" = some (.int epoch)
  low' : 0 ≤ epoch
  precheck : (task.get "precheck").obj?.isSome = true
  listed : ∃ decisions handoffs evidence, Listed task gates risks decisions handoffs evidence moves
  leads : Leads .created moves from_
  walks : ∃ versioned, TaskSchema.validateMoves versioned "CREATED" (-1) moves = .ok from_.name

theorem situation_of_valid {task : Json} (plain : task.Plain)
    (valid : TaskSchema.validateTask host task (some id) = .ok ()) :
    ∃ from_ revision epoch gates risks moves,
      Situation host id task from_ revision epoch gates risks moves := by
  obtain ⟨header, _, _, lists, _, history, _⟩ := validateTask_eq_ok.mp valid
  have facts := valid_of_validateTask valid
  obtain ⟨revision, revisionIs, low⟩ := facts.revision
  obtain ⟨epoch, epochIs, low'⟩ := facts.epoch
  obtain ⟨gates, risks, decisions, handoffs, evidence, moves, listed⟩ := validateLists_eq_ok.mp lists
  simp only [TaskSchema.validateHeader, bind_eq_ok, require_eq_ok, exists_const] at header
  obtain ⟨_, _, _, _, complete, _, _, _, _, _, _, _, _, _, _, _, _, _, _, _, _, _, precheck,
    _⟩ := header
  simp only [TaskSchema.validateHistory, bind_eq_ok, require_eq_ok, requireList_iff,
    listed.movesIs] at history
  obtain ⟨moves', same, reached, walked, state⟩ := history
  cases same
  obtain ⟨from_, rfl, leads, _⟩ := @leads_of_validateMoves _ .created _ _ _ walked
  have previous : (task.get? "previous_state").isSome = true := by
    have here := List.filter_eq_nil_iff.mp complete "previous_state" (by simp [TaskSchema.required])
    rw [Option.isNone_iff_eq_none] at here
    exact Option.isSome_iff_ne_none.mpr here
  have stateIs : task.get? "state" = some (.str from_.name) := by
    have found := Json.equal_str.mp state
    rw [Json.get?_of_get_ne_null (by rw [found]; simp), found]
  exact ⟨from_, revision, epoch, gates, risks, moves, plain, valid, stateIs, previous,
    get?_of_get_int revisionIs, low, get?_of_get_int epochIs, low', precheck,
    ⟨decisions, handoffs, evidence, listed⟩, leads, ⟨_, walked⟩⟩

/-! ## The save -/

section

variable {task : Json} {from_ goal : Stage} {revision epoch : ℤ} {gates risks moves moved : List Json}
  {turned edited migrated updated move : Json}

/-- The migration of the task before and of the task at its next epoch. -/
structure Pair (host : Host) (task turned : Json) (goal : Stage) (epoch : ℤ)
    (gates risks moves moved : List Json) (move migrated updated : Json) : Prop where
  turns : Turned task turned goal (epoch + 1) gates risks moves move
  before : Migrated host task moved migrated
  after : Migrated host turned (moved ++ [move]) updated

namespace Pair

theorem kept (pair : Pair host task turned goal epoch gates risks moves moved move migrated updated)
    {key : Text} (spared : key ∉ turnedFields) (plain : key ∉ migratedFields host) :
    updated.get? key = task.get? key :=
  (pair.after.kept key plain).trans (pair.turns.kept key spared)

theorem turned_ (pair : Pair host task turned goal epoch gates risks moves moved move migrated updated)
    {key : Text} {value : Json} (found : turned.get? key = some value)
    (plain : key ∉ migratedFields host) : updated.get? key = some value :=
  (pair.after.kept key plain).trans found

theorem default (pair : Pair host task turned goal epoch gates risks moves moved move migrated updated)
    {field : Text × Json} (member : field ∈ migrationDefaults host) (other : field.1 ≠ text "tdd")
    (spared : field.1 ∉ turnedFields) :
    updated.get? field.1 = some (task.getD field.1 field.2) := by
  rw [pair.after.defaults field member other, Json.getD, pair.turns.kept _ spared, Json.getD]

theorem tdd (pair : Pair host task turned goal epoch gates risks moves moved move migrated updated) :
    updated.get? "tdd" = migrated.get? "tdd" := by
  rw [pair.after.tdd, pair.before.tdd, Json.getD,
    pair.turns.kept _ (by simp [turnedFields, advancedFields]), Json.getD]

/-- No receipt of the epoch before is left. -/
theorem receiptless
    (pair : Pair host task turned goal epoch gates risks moves moved move migrated updated)
    {digest : Json} {field : Text} (member : field ∈ [text "falsification", "review_receipt"]) :
    (updated.set "evidence_set_digest" digest).get field = .null := by
  have cleared : turned.get? field = some .null := by
    simp only [List.mem_cons, List.not_mem_nil, or_false] at member
    rcases member with rfl | rfl
    · exact pair.turns.attacked
    · exact pair.turns.reviewed
  have facts : (field, Json.null) ∈ migrationDefaults host ∧ field ≠ text "tdd" ∧
      text "evidence_set_digest" ≠ field := by
    simp only [List.mem_cons, List.not_mem_nil, or_false] at member
    rcases member with rfl | rfl <;> simp [migrationDefaults]
  rw [Json.get_set_of_ne _ facts.2.2, Json.get, Json.getD,
    pair.after.defaults _ facts.1 facts.2.1, Json.getD, cleared]
  rfl

end Pair

/-! ## The stored task -/

theorem erase_set_self {value item : Json} {key : Text} :
    (value.set key item).erase key = value.erase key := by
  cases value with
  | obj fields =>
      refine congrArg Json.obj ?_
      induction fields with
      | nil => simp [Fields.set, Fields.erase]
      | cons field rest ih =>
          obtain ⟨first, old⟩ := field
          unfold Fields.set
          split
          · next same => simp [Fields.erase, same]
          · split
            · simp [Fields.erase]
            · next differs _ =>
                simp only [Fields.erase, List.filter_cons] at ih ⊢
                rw [ih]
  | _ => rfl

/-- The fields that a save sets after its checks. -/
def stampedFields : List Text :=
  ["final_audit_complete", "final_audit_workspace", "revision", "updated", "integrity_sha256"]

theorem get?_storedTask {current checked : Json} {expected : ℤ} {time key : Text}
    (absent : key ∉ stampedFields) :
    (storedTask host current checked expected time).get? key = checked.get? key := by
  simp only [stampedFields, List.mem_cons, List.not_mem_nil, or_false, not_or] at absent
  obtain ⟨audit, workspace, revision, updated, integrity⟩ := absent
  rw [storedTask, sealTask, reseal, Json.get?_set_of_ne _ (Ne.symm integrity),
    Json.get?_set_of_ne _ (Ne.symm updated), Json.get?_set_of_ne _ (Ne.symm revision)]
  unfold keepAudit
  split
  · rw [Json.get?_erase _ (Ne.symm workspace), Json.get?_set_of_ne _ (Ne.symm audit)]
  · rfl

theorem get_storedTask {current checked : Json} {expected : ℤ} {time key : Text}
    (absent : key ∉ stampedFields) :
    (storedTask host current checked expected time).get key = checked.get key := by
  rw [Json.get, Json.getD, get?_storedTask absent, Json.get, Json.getD]

/-- The task that a save makes of the task at its next epoch. -/
theorem advanced_storedTask
    (pair : Pair host task turned goal epoch gates risks moves moved move migrated updated)
    {bytes : Bytes} {time : Text} :
    Advanced host task (storedTask host task
      (updated.set "evidence_set_digest" (.str (host.sha256 bytes))) revision time) goal (epoch + 1)
      (revision + 1) time gates risks (moved ++ [move]) := by
  have object : (updated.set "evidence_set_digest" (.str (host.sha256 bytes))).obj?.isSome = true :=
    Json.isSome_set.trans pair.after.object
  generalize checkedIs : updated.set "evidence_set_digest" (.str (host.sha256 bytes)) = checked at *
  have checkedKept {key : Text} (differs : text "evidence_set_digest" ≠ key) :
      checked.get? key = updated.get? key := by
    rw [← checkedIs]
    exact Json.get?_set_of_ne _ differs
  have kept {key : Text} (absent : key ∉ stampedFields) (differs : text "evidence_set_digest" ≠ key) :
      (storedTask host task checked revision time).get? key = updated.get? key :=
    (get?_storedTask absent).trans (checkedKept differs)
  have turned_ {key : Text} {value : Json} (found : turned.get? key = some value)
      (plain : key ∉ migratedFields host) (absent : key ∉ stampedFields)
      (differs : text "evidence_set_digest" ≠ key) :
      (storedTask host task checked revision time).get? key = some value :=
    (kept absent differs).trans (pair.turned_ found plain)
  have auditObject : (keepAudit task checked).obj?.isSome = true :=
    touched_keepAudit.object.trans object
  have steady : ∀ key ∈ keptFields, key ∉ turnedFields ∧ key ∉ migratedFields host ∧
      key ∉ stampedFields ∧ text "evidence_set_digest" ≠ key := by
    simp [keptFields, turnedFields, advancedFields, migratedFields, migrationDefaults, stampedFields]
  have audited : checked.get? "final_audit_complete" = some (.bool false) := by
    rw [checkedKept (by simp)]
    exact pair.turned_ pair.turns.audited (by simp [migratedFields, migrationDefaults])
  exact {
    object := isSome_reseal.trans (Json.isSome_set.trans (Json.isSome_set.trans auditObject))
    schema := by
      rw [Json.get, Json.getD, kept (by simp [stampedFields]) (by simp)]
      exact pair.after.schema
    kept := by
      intro key member
      obtain ⟨turned, plain, absent, differs⟩ := steady key member
      rw [kept absent differs, pair.kept turned plain]
    tdd := by
      rw [kept (by simp [stampedFields]) (by simp), pair.tdd, pair.before.tdd, Json.getD]
    material := by
      rw [kept (by simp [stampedFields]) (by simp)]
      exact @Pair.default _ _ _ _ _ _ _ _ _ _ _ _ pair (text "material_claim", .bool true)
        (by simp [migrationDefaults]) (by simp) (by simp [turnedFields, advancedFields])
    implementation := by
      rw [kept (by simp [stampedFields]) (by simp)]
      exact @Pair.default _ _ _ _ _ _ _ _ _ _ _ _ pair (text "implementation_digest", .null)
        (by simp [migrationDefaults]) (by simp) (by simp [turnedFields, advancedFields])
    diff := by
      rw [kept (by simp [stampedFields]) (by simp)]
      exact @Pair.default _ _ _ _ _ _ _ _ _ _ _ _ pair (text "diff_digest", .null)
        (by simp [migrationDefaults]) (by simp) (by simp [turnedFields, advancedFields])
    evidenceSet := by
      refine ⟨bytes, ?_⟩
      rw [get_storedTask (by simp [stampedFields]), ← checkedIs]
      exact Json.get_set_self pair.after.object
    state := turned_ pair.turns.state (by simp [migratedFields, migrationDefaults])
      (by simp [stampedFields]) (by simp)
    revision_ := by
      rw [storedTask, sealTask, reseal, Json.get?_set_of_ne _ (by simp),
        Json.get?_set_of_ne _ (by simp), Json.get?_set auditObject, if_pos rfl]
    epoch_ := turned_ pair.turns.epoch_ (by simp [migratedFields, migrationDefaults])
      (by simp [stampedFields]) (by simp)
    updated := by
      rw [storedTask, sealTask, reseal, Json.get?_set_of_ne _ (by simp),
        Json.get?_set (Json.isSome_set.trans auditObject), if_pos rfl]
    previous := by
      rw [kept (by simp [stampedFields]) (by simp),
        pair.after.kept _ (by simp [migratedFields, migrationDefaults])]
      exact pair.turns.previous
    gates_ := turned_ pair.turns.gates_ (by simp [migratedFields, migrationDefaults])
      (by simp [stampedFields]) (by simp)
    risks_ := turned_ pair.turns.risks_ (by simp [migratedFields, migrationDefaults])
      (by simp [stampedFields]) (by simp)
    evidence := turned_ pair.turns.evidence (by simp [migratedFields, migrationDefaults])
      (by simp [stampedFields]) (by simp)
    verified := turned_ pair.turns.verified (by simp [migratedFields, migrationDefaults])
      (by simp [stampedFields]) (by simp)
    attacked := by
      rw [kept (by simp [stampedFields]) (by simp),
        pair.after.defaults (text "falsification", .null) (by simp [migrationDefaults]) (by simp),
        Json.getD, pair.turns.attacked, Option.getD_some]
    reviewed := by
      rw [kept (by simp [stampedFields]) (by simp),
        pair.after.defaults (text "review_receipt", .null) (by simp [migrationDefaults]) (by simp),
        Json.getD, pair.turns.reviewed, Option.getD_some]
    audited := by
      rw [storedTask, sealTask, reseal, Json.get?_set_of_ne _ (by simp),
        Json.get?_set_of_ne _ (by simp), Json.get?_set_of_ne _ (by simp)]
      unfold keepAudit
      split
      · rw [Json.get?_erase _ (by simp), Json.get?_set object, if_pos rfl]
      · exact audited
    moves_ := by
      rw [kept (by simp [stampedFields]) (by simp), pair.after.moves_]
    integrity := by
      rw [storedTask, TaskSchema.stateDigest, sealTask, reseal, erase_set_self]
      exact Json.get_set_self (Json.isSome_set.trans (Json.isSome_set.trans auditObject)) }

/-! ## What the save asks for -/

/-- A waived gate of the constitution is waived by a record that is bound to an epoch. -/
def WaivedAt (records : List Json) (task : Json) (epoch : ℤ) (gate : Json) : Prop :=
  gate.get "status" = .str "WAIVED" → gate.get "gate_severity" ≠ .null →
    validateGateWaiver gate records task epoch = .ok true

theorem validateWaiver_iff {records : List Json} {owner gate : Json} {epoch : ℤ}
    (object : gate.obj?.isSome = true) :
    validateWaiver host records owner (.int epoch) gate = .ok () ↔
      WaivedAt records owner epoch gate := by
  rw [validateWaiver, fetch_eq_ok.mpr ⟨object, rfl⟩]
  simp only [ok_bind, WaivedAt, Host.int, Json.equal_str]
  split
  · next both =>
      simp only [bind_eq_ok, require_eq_ok]
      constructor
      · rintro ⟨_, passes, rfl⟩ _ _
        exact passes
      · intro waived
        exact ⟨true, waived both.1 both.2, rfl⟩
  · next neither =>
      refine iff_of_true rfl fun waived constitutional => ?_
      exact absurd ⟨waived, constitutional⟩ neither

theorem validateWaiver_reopenGate {records : List Json} {owner gate : Json} {epoch : ℤ}
    (object : gate.obj?.isSome = true) :
    validateWaiver host records owner (.int epoch) (reopenGate gate) = .ok () ↔
      WaivedAt records owner epoch gate := by
  by_cases proven : gate.get "status" = .str "PROVEN"
  · obtain ⟨open_, _⟩ := reopenGate_of_proven proven
    refine iff_of_true ?_ fun waived => ?_
    · rw [validateWaiver, fetch_eq_ok.mpr ⟨isSome_reopenGate.trans object, open_⟩]
      rfl
    · rw [proven] at waived
      simp at waived
  · rw [reopenGate_of_not_proven proven]
    exact validateWaiver_iff object

theorem validateMoves_next {stage goal : Stage} {last revision epoch : ℤ}
    (next : NextMove move stage goal (revision + 1) epoch) (allowed : goal ∈ stage.allowed) :
    TaskSchema.validateMoves true stage.name last [move] = .ok goal.name ↔ last ≤ revision := by
  have targets : inSet (.str goal.name) (stage.allowed.map (·.name)) = .ok true :=
    inSet_eq_true.mpr ⟨goal.name, List.mem_map_of_mem allowed, rfl⟩
  obtain ⟨moment, isMoment⟩ := Option.isSome_iff_exists.mp next.moment
  rw [Json.str?_eq_some] at isMoment
  simp only [TaskSchema.validateMoves, Stage.ofName?_name, Option.map_some, Option.getD_some,
    fetch_eq_ok.mpr ⟨next.object, next.from_⟩, targets, next.revision_, next.epoch_, next.reason,
    isMoment, next.to_, Json.int?, Json.str?, Option.isSome_some, ok_bind, Json.equal_str, if_true,
    bind_eq_ok, require_eq_ok, exists_const, true_and, pure, Except.pure, and_true]
  omega

theorem continuable_moves {stage goal : Stage} {revision epoch : ℤ} {versioned : Bool}
    (next : NextMove move stage goal (revision + 1) epoch) (allowed : goal ∈ stage.allowed)
    (valid : TaskSchema.validateMoves versioned "CREATED" (-1) moves = .ok stage.name)
    (numbers : migrateMoves 1 0 moves = .ok moved) (ends : endOf "CREATED" moved = stage.name) :
    TaskSchema.validateMoves true "CREATED" (-1) (moved ++ [move]) = .ok goal.name ↔
      Ascends 1 (-1) moves ∧ lastNumber 1 (-1) moves ≤ revision := by
  rw [validateMoves_append, lastRevision_migrated numbers, ← validateMoves_migrated valid numbers]
  simp only [bind_eq_ok]
  constructor
  · rintro ⟨middle, walked, last⟩
    have is := endOf_of_validateMoves walked
    rw [ends] at is
    subst is
    rw [validateMoves_next next allowed] at last
    exact ⟨walked, last⟩
  · rintro ⟨walked, last⟩
    exact ⟨_, walked, (validateMoves_next next allowed).mpr last⟩

/-- What the heads of a ledger and of its task say is the same. -/
theorem headOf_eq {files : TaskFiles} {records : List Json} {head : Json}
    (ledger : Evidence.loadEvidence host id files true = .ok records)
    (heads : (Evidence.headOf records).equal head = true) : Evidence.headOf records = head := by
  have known : Evidence.NoneOrText (Evidence.headOf records) := by
    obtain ⟨raw, anchor, state⟩ := files
    cases raw with
    | none =>
        obtain ⟨rfl, _⟩ := Evidence.loadEvidence_none.mp ledger
        exact Or.inl rfl
    | some raw =>
        obtain ⟨⟨_, _, chained⟩, _⟩ := Evidence.loadEvidence_some.mp ledger
        exact Evidence.noneOrText_headOf (Or.inl rfl) chained
  rcases known with none | ⟨digest, is⟩
  · rw [none, Json.null_equal] at heads
    rw [none, heads]
  · rw [is, Json.str_equal] at heads
    rw [is, heads]

/-- A task that keeps its evidence head keeps the head of its ledger. -/
theorem validateHead_kept {files : TaskFiles} {records : List Json} {task updated : Json}
    (ledger : Evidence.loadEvidence host id files true = .ok records)
    (heads : (Evidence.headOf records).equal (task.get "evidence_head") = true)
    (same : updated.get "evidence_head" = task.get "evidence_head") :
    validateHead records task updated = .ok () := by
  have here := headOf_eq ledger heads
  have reflexive : (task.get "evidence_head").equal (task.get "evidence_head") = true := by
    rw [here] at heads
    exact heads
  rw [validateHead, same]
  simp only [heads, reflexive, not_true, false_and, if_false, require, if_true, ok_bind]
  rfl

theorem validateHead_next {files : TaskFiles} {records : List Json}
    (pair : Pair host task turned goal epoch gates risks moves moved move migrated updated)
    (ledger : Evidence.loadEvidence host id files true = .ok records)
    (heads : (Evidence.headOf records).equal (task.get "evidence_head") = true) :
    validateHead records task updated = .ok () :=
  validateHead_kept ledger heads
    (get_of_get? (@Pair.default _ _ _ _ _ _ _ _ _ _ _ _ pair (text "evidence_head", .null)
      (by simp [migrationDefaults]) (by simp) (by simp [turnedFields, advancedFields])))

/-- The receipts of the epoch before are gone, so none is left to compare. -/
theorem keepReceipts_next (situation : Situation host id task from_ revision epoch gates risks moves)
    (pair : Pair host task turned goal epoch gates risks moves moved move migrated updated)
    {digest : Json} : keepReceipts task migrated (updated.set "evidence_set_digest" digest) =
      .ok (updated.set "evidence_set_digest" digest) := by
  have attacked := @Pair.receiptless _ _ _ _ _ _ _ _ _ _ _ _ pair digest "falsification" (by simp)
  have reviewed := @Pair.receiptless _ _ _ _ _ _ _ _ _ _ _ _ pair digest "review_receipt" (by simp)
  have untouched {field : Text} {changed : Bool} {value : Json} (cleared : value.get field = .null) :
      dropReceipt field changed task value = value := by
    refine if_neg ?_
    rintro ⟨filled, same, _⟩
    rw [cleared, Json.null_equal] at same
    exact filled same
  have bindings {value : Json} (precheck : (value.getD "precheck" (.obj [])).obj?.isSome = true) :
      ∃ found, reviewBindings value = .ok found := by
    rw [reviewBindings]
    simp only [fetch_eq_ok.mpr ⟨precheck, rfl⟩, ok_bind]
    exact ⟨_, rfl⟩
  have precheck : (task.getD "precheck" (.obj [])).obj?.isSome = true := by
    have there := situation.precheck
    rw [Json.get, Json.getD] at there
    rw [Json.getD]
    cases is : task.get? "precheck" with
    | none => rfl
    | some value =>
        rw [is] at there
        exact there
  obtain ⟨before, beforeIs⟩ := @bindings migrated (by
    rw [Json.getD, pair.before.kept _ (by simp [migratedFields, migrationDefaults])]
    exact precheck)
  obtain ⟨after, afterIs⟩ := @bindings (updated.set "evidence_set_digest" digest) (by
    rw [Json.getD, Json.get?_set_of_ne _ (by simp),
      pair.kept (by simp [turnedFields, advancedFields]) (by simp [migratedFields, migrationDefaults])]
    exact precheck)
  rw [keepReceipts, untouched attacked]
  simp only [beforeIs, afterIs, ok_bind, untouched reviewed]
  rfl

theorem validateAppendOnly_pair (situation : Situation host id task from_ revision epoch gates risks
      moves)
    (pair : Pair host task turned goal epoch gates risks moves moved move migrated updated)
    {digest : Json} : validateAppendOnly migrated (updated.set "evidence_set_digest" digest) = .ok () ↔
      validateAppendOnly migrated migrated = .ok () := by
  obtain ⟨decisions, handoffs, evidence, listed⟩ := situation.listed
  have unchanged {key : Text} (differs : text "evidence_set_digest" ≠ key) :
      (updated.set "evidence_set_digest" digest).get? key = updated.get? key :=
    Json.get?_set_of_ne _ differs
  have old {key : Text} (plain : key ∉ migratedFields host) : migrated.get? key = task.get? key :=
    pair.before.kept key plain
  have steady : ∀ key ∈ steadyFields, text "evidence_set_digest" ≠ key ∧
      (key = text "tdd" ∨ key ∉ turnedFields ∧ key ∉ migratedFields host) := by
    simp [steadyFields, immutableFields, turnedFields, advancedFields, migratedFields,
      migrationDefaults]
  obtain ⟨_, tdd, _⟩ := validateTask_eq_ok.mp situation.valid
  obtain ⟨record, cycles, there, contract⟩ := pair.before.cycles tdd
  refine @validateAppendOnly_next _ _ move gates risks moved cycles epoch ?_ pair.before.moves_ ?_
    (fetchD_cycles there contract.cyclesAre) ?_ ?_ ?_ ?_ ?_ ?_
  · intro key member
    obtain ⟨differs, is | ⟨spared, plain⟩⟩ := steady key member
    · subst is
      rw [unchanged differs, pair.tdd]
    · rw [unchanged differs, pair.kept spared plain, old plain]
  · rw [unchanged (by simp), pair.after.moves_]
  · rw [old (by simp [migratedFields, migrationDefaults])]
    exact listed.gatesIs
  · rw [unchanged (by simp)]
    exact pair.turned_ pair.turns.gates_ (by simp [migratedFields, migrationDefaults])
  · rw [old (by simp [migratedFields, migrationDefaults])]
    exact listed.risksIs
  · rw [unchanged (by simp)]
    exact pair.turned_ pair.turns.risks_ (by simp [migratedFields, migrationDefaults])
  · rw [old (by simp [migratedFields, migrationDefaults])]
    exact situation.epochIs
  · rw [unchanged (by simp)]
    exact pair.turned_ pair.turns.epoch_ (by simp [migratedFields, migrationDefaults])

theorem Listed.gate_object {decisions handoffs evidence : List Json} {gate : Json}
    (listed : Listed task gates risks decisions handoffs evidence moves) (member : gate ∈ gates) :
    gate.obj?.isSome = true := by
  obtain ⟨status, _⟩ := validateGate_eq_ok.mp (listed.gates_ gate member)
  obtain ⟨name, _, is⟩ := inSet_eq_true.mp status
  exact isSome_of_get_ne_null (by rw [is]; simp)

/-- What `_save_locked` asks of a task at its next epoch. -/
theorem prepare_next {files : TaskFiles} {records : List Json} {time : Text} {result : Json × Json}
    (situation : Situation host id task from_ revision epoch gates risks moves)
    (pair : Pair host task turned goal epoch gates risks moves moved move migrated updated)
    (migrates : migrate host task = .ok migrated) (updates : migrate host edited = .ok updated)
    (next : NextMove move from_ goal (revision + 1) (epoch + 1)) (allowed : goal ∈ from_.allowed)
    (numbers : migrateMoves 1 0 moves = .ok moved) (ends : endOf "CREATED" moved = from_.name)
    (timely : strip time ≠ [])
    (idle : (task.get "active_child").truthy = false)
    (ledger : Evidence.loadEvidence host id files true = .ok records)
    (heads : (Evidence.headOf records).equal (task.get "evidence_head") = true) :
    prepare host files task edited revision time = .ok result ↔
      (∀ gate ∈ gates, WaivedAt records (.str id) (epoch + 1) gate) ∧
        (Continuable task ∧ lastNumber 1 (-1) moves ≤ revision) ∧
        result = (migrated, storedTask host task (updated.set "evidence_set_digest"
          (.str (evidenceSetDigest host records))) revision time) := by
  obtain ⟨decisions, handoffs, evidence, listed⟩ := situation.listed
  have idIs : task.get "id" = .str id := (valid_of_validateTask situation.valid).id_
  have updatedId : updated.get "id" = .str id := by
    rw [Json.get, Json.getD, pair.kept (by simp [turnedFields, advancedFields])
      (by simp [migratedFields, migrationDefaults])]
    exact idIs
  have gatesIs : itemsOf updated "gates" = .ok (gates.map reopenGate) := by
    rw [itemsOf, Json.getD,
      pair.turned_ pair.turns.gates_ (by simp [migratedFields, migrationDefaults])]
    rfl
  have epochIs : updated.getD "change_epoch" (.int 0) = .int (epoch + 1) := by
    rw [Json.getD, pair.turned_ pair.turns.epoch_ (by simp [migratedFields, migrationDefaults])]
    rfl
  have waivers : ((gates.map reopenGate).forM (validateWaiver host records (.str id)
      (.int (epoch + 1))) = .ok ()) ↔ ∀ gate ∈ gates, WaivedAt records (.str id) (epoch + 1) gate := by
    rw [forM_eq_ok, List.forall_mem_map]
    exact forall₂_congr fun gate member => validateWaiver_reopenGate (listed.gate_object member)
  have advanced := @advanced_storedTask host task goal revision epoch gates risks moves moved turned
    migrated updated move pair
    (records.flatMap fun record => encode ((record.get "record_sha256").str?.getD [])) time
  have low := situation.low
  have low' := situation.low'
  have valid := advanced.valid_iff (by omega) (by omega) timely situation.valid listed idle
  obtain ⟨versioned, walks⟩ := situation.walks
  rw [continuable_moves next allowed walks numbers ends] at valid
  have gatesAre := itemsUnder_eq listed.gatesIs
  have movesAre := itemsUnder_eq listed.movesIs
  have append := @validateAppendOnly_pair host id task from_ goal revision epoch gates risks moves moved
    turned migrated updated move situation pair (.str (evidenceSetDigest host records))
  have attacked := @Pair.receiptless _ _ _ _ _ _ _ _ _ _ _ _ pair
    (.str (evidenceSetDigest host records)) "falsification" (by simp)
  have reviewed := @Pair.receiptless _ _ _ _ _ _ _ _ _ _ _ _ pair
    (.str (evidenceSetDigest host records)) "review_receipt" (by simp)
  have here : (task.get "revision").equal (.int revision) = true := by
    rw [get_of_get? situation.revisionIs]
    exact Json.int_equal_int.mpr rfl
  have same : (Json.str id).equal (.str id) = true := Json.equal_str.mpr rfl
  simp only [prepare, bind_eq_ok, require_eq_ok, exists_const, here, true_and, migrates,
    updates, Except.ok.injEq, exists_eq_left', updatedId, idIs, same, Json.str?, Option.getD_some,
    ledger, gatesIs, epochIs, waivers, validateHead_next pair ledger heads,
    keepReceipts_next situation pair, attacked, reviewed, ne_eq, not_true_eq_false, if_false, append,
    validateAppendOnly_self situation.valid pair.before]
  constructor
  · rintro ⟨waived, comparable, _, stored, is⟩
    obtain ⟨local_, ascends, last⟩ := valid.mp stored
    exact ⟨waived, ⟨⟨gatesAre ▸ local_, movesAre ▸ ascends, comparable⟩, last⟩,
      (Except.ok.inj is).symm⟩
  · rintro ⟨waived, ⟨⟨local_, ascends, comparable⟩, last⟩, rfl⟩
    exact ⟨waived, comparable, (), valid.mpr ⟨gatesAre ▸ local_, movesAre ▸ ascends, last⟩, rfl⟩

/-- An accepted transition turns a valid task, and both tasks can be migrated. -/
theorem pair_of_accepted {surroundings : Surroundings} {files : TaskFiles} {reason : Text}
    (situation : Situation host id task from_ revision epoch gates risks moves)
    (implementing : goal = .implement ∨ goal = .remediate)
    (accepted : validateTransition host task goal.name reason = .ok ()) :
    goal ∈ from_.allowed ∧ ∃ edited move moved migrated updated,
      applyTransition host surroundings goal.name reason task files = .ok edited ∧
      migrate host task = .ok migrated ∧ migrate host edited = .ok updated ∧
      Pair host task edited.normalize goal epoch gates risks moves moved move migrated updated ∧
      NextMove move from_ goal (revision + 1) (epoch + 1) ∧ migrateMoves 1 0 moves = .ok moved ∧
      endOf "CREATED" moved = from_.name := by
  obtain ⟨decisions, handoffs, evidence, listed⟩ := situation.listed
  have facts := valid_of_validateTask situation.valid
  have open_ : goal ≠ .finalize := by
    rcases implementing with rfl | rfl <;> simp
  obtain ⟨filled, from', stateIs, allowed⟩ := accepted_move open_ accepted
  have same : from' = from_ := by
    have names := stateIs.symm.trans situation.stateIs
    rw [Option.some.injEq, Json.str.injEq] at names
    exact Stage.name_inj names
  subst same
  obtain ⟨edited, move, edits, turns, next⟩ := @applyTransition_turned host surroundings task files from'
    goal reason revision epoch gates risks moves implementing situation.plain facts.object stateIs
    situation.previous situation.revisionIs situation.epochIs listed.gatesIs listed.risksIs
    listed.movesIs filled accepted
  obtain ⟨moved, numbers, ends⟩ := @migrateMoves_of_leads _ _ _ 1 0 situation.leads
  have tddObject : ∀ tdd, task.get? "tdd" = some tdd → tdd.obj?.isSome = true := by
    intro tdd found
    have valid := facts.tdd tdd found
    simp only [TaskSchema.validateTdd, bind_eq_ok, require_eq_ok, exists_const] at valid
    exact valid.1
  have plain : task.normalize = task := situation.plain
  obtain ⟨migrated, migrates, before⟩ := @migrated_of_moves host task moves moved
    (by rw [plain]; exact facts.object) (by rw [plain]; exact tddObject)
    (by rw [plain]; exact listed.movesIs) numbers
  rw [plain] at before
  have revisionThere : (move.get? "revision").isSome = true := by
    rw [Json.get?_of_get_ne_null (by rw [next.revision_]; simp)]
    rfl
  have epochThere : (move.get? "epoch").isSome = true := by
    rw [Json.get?_of_get_ne_null (by rw [next.epoch_]; simp)]
    rfl
  obtain ⟨updated, updates, after⟩ := @migrated_of_moves host edited (moves ++ [move])
    (moved ++ [move]) turns.object
    (by
      intro tdd found
      rw [turns.kept _ (by simp [turnedFields, advancedFields])] at found
      exact tddObject tdd found)
    turns.moves_ (migrateMoves_append numbers next.to_ revisionThere epochThere)
  exact ⟨allowed, edited, move, moved, migrated, updated, edits, migrates, updates,
    ⟨turns, before, after⟩, next, numbers, ends⟩

end

/-! ## The anchors -/

/-- Names of anchors tell revisions apart. -/
theorem revision_of_historyName {first second : ℤ} {digest digest' : Text} (low : 0 ≤ first)
    (low' : 0 ≤ second) (long : digest.length = 64) (long' : digest'.length = 64)
    (same : historyName first digest = historyName second digest') : first = second := by
  have digits {revision : ℤ} (low : 0 ≤ revision) : padded revision = digitText
      (List.replicate (20 - (intText revision).length) 0 ++ digitsOf revision.natAbs) := by
    have plain : intText revision = digitText (digitsOf revision.natAbs) := by
      rw [intText, if_neg (not_lt.mpr low), List.nil_append]
    rw [padded, plain, digitText, digitText, List.map_append, List.map_replicate]
    rfl
  have value (zeros : ℕ) (rest : List (Fin 10)) :
      numberOf (List.replicate zeros 0 ++ rest) = numberOf rest := by
    rw [numberOf, List.foldl_append]
    have missing : (List.replicate zeros (0 : Fin 10)).foldl
        (fun number digit => 10 * number + digit.val) 0 = 0 := by
      induction zeros with
      | zero => rfl
      | succ zeros ih => exact ih
    rw [missing, numberOf]
  have injective : Function.Injective
      fun digit : Fin 10 => (Fin.ofNat _ (48 + digit.val) : CodePoint) := by
    intro left right equal
    have values := congrArg Fin.val equal
    simp only [Fin.ofNat] at values
    omega
  have parts : padded first = padded second := by
    rw [historyName, historyName, List.append_assoc, List.append_assoc, List.append_assoc,
      List.append_assoc] at same
    have tails : (text "-" ++ (digest ++ text ".json")).length =
        (text "-" ++ (digest' ++ text ".json")).length := by
      simp only [List.length_append, long, long']
    exact (List.append_inj' same tails).1
  rw [digits low, digits low', digitText, digitText, List.map_inj_right injective] at parts
  have numbers := congrArg numberOf parts
  rw [value, value, numberOf_digitsOf, numberOf_digitsOf] at numbers
  omega

/-- An entry of the history has the name of its anchor. -/
theorem name_of_readEntry {entry : Text × Option Bytes} {number : ℤ} {anchor : Json}
    (reads : readEntry host id entry = .ok (number, anchor)) :
    ∃ digest : Text, digest.length = 64 ∧ 0 ≤ number ∧ entry.1 = historyName number digest := by
  rw [readEntry] at reads
  split at reads
  · cases reads
  · simp only [bind_eq_ok, require_eq_ok, exists_const] at reads
    obtain ⟨_, reads⟩ := reads
    split at reads
    · cases reads
    · simp only [bind_eq_ok, require_eq_ok, exists_const] at reads
      obtain ⟨_, _, _, _, _, reads⟩ := reads
      split at reads
      · next revision digest _ _ =>
          simp only [bind_eq_ok, require_eq_ok, exists_const] at reads
          obtain ⟨⟨low, long, _, named⟩, is⟩ := reads
          cases is
          exact ⟨digest, long, low, named⟩
      · cases reads

/-- The history of an anchor that can be loaded ends at the anchor's revision. -/
theorem fresh_of_loadAnchor {disk : TaskDisk} {required : Bool} {anchor : Json} {revision : ℤ}
    (loads : loadAnchor host id disk required = .ok (some anchor))
    (here : (anchor.get "revision").equal (.int revision) = true) (low : 0 ≤ revision)
    {digest : Text} (long : digest.length = 64) :
    historyName (revision + 1) digest ∉ (disk.history.getD []).map (·.1) := by
  obtain ⟨bytes, _, _, _, valid⟩ := loadAnchor_eq_some.mp loads
  cases is : disk.history with
  | none => simp
  | some entries =>
      by_cases empty : entries = []
      · simp [empty]
      · rw [is, validateAnchorHistory_some empty] at valid
        obtain ⟨anchors, reads, valid⟩ := valid
        obtain ⟨_, origin, _, last, lastIs, revisions, _⟩ := validateAnchors_eq_ok.mp valid
        have there : anchor.getD "revision" (.int (-1)) = anchor.get "revision" := by
          rw [Json.get, Json.getD, Json.getD]
          cases found : anchor.get? "revision" with
          | none =>
              rw [Json.get, Json.getD, found] at here
              cases here
          | some value => rfl
        rw [there, Host.int_of_equal here, Except.ok.injEq] at lastIs
        subst lastIs
        rw [Option.getD_some]
        intro member
        obtain ⟨entry, inside, named⟩ := List.mem_map.mp member
        have sorted := (perm_byName entries).mem_iff.mpr inside
        obtain ⟨⟨number, read⟩, output, readIs⟩ := exists_mem_of_mapM reads sorted
        have bound : number ∈ (byRevision anchors).map (·.1) :=
          List.mem_map_of_mem (f := Prod.fst) ((perm_byRevision anchors).mem_iff.mpr output)
        rw [revisions, mem_range] at bound
        obtain ⟨digest', long', low', nameIs⟩ := name_of_readEntry readIs
        have number_ := revision_of_historyName low' (by omega) long' long (nameIs.symm.trans named)
        omega

/-! ## The call -/

section

variable {surroundings : Surroundings} {time : Text} {disk : TaskDisk} {task : Json} {goal : Stage}
  {reason : Text} {records : List Json} {revision : ℤ}

/-- What a save returns is what was prepared for it. -/
theorem prepare_of_saveLocked {edited stored : Json} {after : TaskDisk}
    (done : saveLocked host disk task edited revision time = .ok (stored, after)) :
    ∃ migrated, prepare host disk.files task edited revision time = .ok (migrated, stored) := by
  unfold saveLocked at done
  simp only [bind_eq_ok, require_eq_ok, exists_const] at done
  obtain ⟨⟨migrated, stored'⟩, prepares, _, _, _, _, _, _, _, done⟩ := done
  cases done
  exact ⟨migrated, prepares⟩

theorem historyPath_eq_ok {anchor : Json} {name : Text} : historyPath anchor = .ok name ↔
    ∃ number digest, (anchor.get "revision").int? = some number ∧
      (anchor.get "anchor_sha256").str? = some digest ∧ 0 ≤ number ∧ digest.length = 64 ∧
      historyName number digest = name := by
  rw [historyPath]
  constructor
  · intro done
    split at done
    · next number digest counts signs =>
        simp only [bind_eq_ok, require_eq_ok, exists_const, pure, Except.pure, Except.ok.injEq] at done
        exact ⟨number, digest, counts, signs, done.1.1, done.1.2, done.2⟩
    · cases done
  · rintro ⟨number, digest, counts, signs, low, long, rfl⟩
    rw [counts, signs]
    simp only [bind_eq_ok, require_eq_ok, exists_const]
    exact ⟨⟨low, long⟩, rfl⟩

/-- A new anchor has a name. -/
theorem historyPath_newAnchor {stored : Json} {prior : Option Json} {number : ℤ}
    (counts : stored.get "revision" = .int number) (low : 0 ≤ number) :
    historyPath (newAnchor host stored prior) =
      .ok (historyName number (anchorDigest host (newAnchor host stored prior))) := by
  have here : (newAnchor host stored prior).get "revision" = stored.get "revision" :=
    get_sealed (by simp)
  refine historyPath_eq_ok.mpr ⟨number, _, by rw [here, counts, Json.int?], ?_, low,
    Host.digest_length _, rfl⟩
  rw [anchorDigest_newAnchor]
  rfl

/-- The name of an anchor that can be loaded. -/
theorem historyPath_of_intact {anchor : Json} {number : ℤ} (intact : Intact host id anchor)
    (counts : (anchor.get "revision").int? = some number) (low : 0 ≤ number) :
    historyPath anchor = .ok (historyName number (anchorDigest host anchor)) := by
  refine historyPath_eq_ok.mpr ⟨number, _, counts, ?_, low, Host.digest_length _, rfl⟩
  rw [Json.equal_str.mp intact.digest]
  rfl

theorem int_of_equal_int {value : Json} {number : ℤ} (host : Host) (is : value.int? = some number)
    (same : value.equal (.int revision) = true) : number = revision := by
  have read := @Host.int_of_equal host value revision same
  cases value with
  | int given =>
      cases is
      exact Except.ok.inj read
  | bool given =>
      cases is
      exact Except.ok.inj read
  | _ => cases is

theorem loadAnchor_eq_none {required : Bool} :
    loadAnchor host id disk required = .ok none ↔ disk.anchor = none ∧ required = false := by
  rw [loadAnchor]
  cases disk.anchor with
  | none => simp [bind_eq_ok, pure, Except.pure]
  | some bytes =>
      refine iff_of_false (fun done => ?_) fun both => ?_
      · dsimp only at done
        split at done
        · cases done
        · simp only [bind_eq_ok, require_eq_ok, exists_const] at done
          obtain ⟨_, _, _, _, _, _, rest⟩ := done
          split at rest
          · split at rest
            · cases rest
            · simp only [bind_eq_ok] at rest
              obtain ⟨_, _, _, _, _, _, _, _, done⟩ := rest
              cases done
          · obtain ⟨_, _, done⟩ := bind_eq_ok.mp rest
            cases done
      · cases both.1

/-- The anchor that the next one of a task follows. -/
def priorAnchor (host : Host) (disk : TaskDisk) (migrated : Json) : Json :=
  (disk.anchor.bind (readJson host.floats)).getD (newAnchor host migrated none)

theorem priorAnchor_eq {required : Bool} {found : Option Json} {migrated : Json}
    (loads : loadAnchor host id disk required = .ok found) :
    found.getD (newAnchor host migrated none) = priorAnchor host disk migrated := by
  rw [priorAnchor]
  cases found with
  | none => rw [(loadAnchor_eq_none.mp loads).1, Option.bind_none]
  | some anchor =>
      obtain ⟨bytes, is, reads, _⟩ := loadAnchor_eq_some.mp loads
      rw [is, Option.bind_some, reads]

/-- The anchor of a task can be followed by one of this name: its revision counts, and for a
task of schema 2 it is intact, or missing, and the name is not taken. -/
structure Anchorable (host : Host) (id : Text) (disk : TaskDisk) (task : Json) (name : Text) :
    Prop where
  counted : ∀ anchor, loadAnchor host id disk false = .ok (some anchor) →
    ∃ number, (anchor.get "revision").int? = some number ∧ 0 ≤ number
  legacy : TaskSchema.isVersioned (task.get "schema") = false →
    (∃ found, loadAnchor host id disk false = .ok found) ∧
      (∀ anchor, loadAnchor host id disk false = .ok (some anchor) →
        historyPath anchor ≠ .ok name) ∧
      name ∉ (disk.history.getD []).map (·.1)

/-- The next anchor of a task of schema 3 or 4 has a new name. -/
theorem fresh_of_versioned {workspace stored : Json} {priorName : Text} {found : Option Json}
    {migrated : Json} (loads : load host workspace id disk = .ok task)
    (versioned : TaskSchema.isVersioned (task.get "schema") = true)
    (revisionIs : task.get "revision" = .int revision) (low : 0 ≤ revision)
    (anchored : loadAnchor host id disk true = .ok found)
    (path : historyPath (found.getD (newAnchor host migrated none)) = .ok priorName) :
    historyName (revision + 1) (anchorDigest host stored) ≠ priorName ∧
      historyName (revision + 1) (anchorDigest host stored) ∉
        (disk.history.getD []).map (·.1) := by
  obtain ⟨_, _, _, _, anchor, _⟩ := load_eq_ok.mp loads
  obtain ⟨anchor, anchorIs, same, _⟩ := anchor versioned
  rw [anchored, Except.ok.injEq] at anchorIs
  subst anchorIs
  have long : (anchorDigest host stored).length = 64 := Host.digest_length _
  rw [revisionIs] at same
  refine ⟨?_, fresh_of_loadAnchor anchored same low long⟩
  obtain ⟨number, digest, counts, _, low', long', is⟩ := historyPath_eq_ok.mp path
  have equal : number = revision := int_of_equal_int host counts same
  intro names
  have numbers := revision_of_historyName (by omega) low' long long' (names.trans is.symm)
  omega

/-- A save that was prepared is made when the anchor of the task can be followed. -/
theorem saveLocked_iff_of_prepare {workspace edited migrated stored : Json}
    (loads : load host workspace id disk = .ok task)
    (idIs : (task.get "id").str?.getD [] = id)
    (revisionIs : task.get "revision" = .int revision) (low : 0 ≤ revision)
    (prepared : prepare host disk.files task edited revision time = .ok (migrated, stored))
    (carried : migrated.get "revision" = .int revision)
    (counted : stored.get "revision" = .int (revision + 1)) :
    (∃ after, saveLocked host disk task edited revision time = .ok (stored, after)) ↔
      Anchorable host id disk task (historyName (revision + 1)
        (anchorDigest host (newAnchor host stored (some (priorAnchor host disk migrated))))) := by
  have nextPath := @historyPath_newAnchor host stored (some (priorAnchor host disk migrated))
    (revision + 1) counted (by omega)
  constructor
  · rintro ⟨after, saves⟩
    obtain ⟨migrated', stored', found, priorName, name, prepared', anchored, priorPath, nextPath',
      fresh⟩ := saveLocked_ok_iff.mp ⟨_, saves⟩
    cases prepared.symm.trans prepared'
    rw [idIs] at anchored
    rw [priorAnchor_eq anchored] at nextPath'
    cases nextPath.symm.trans nextPath'
    have isFound {anchor : Json} (loaded : loadAnchor host id disk false = .ok (some anchor)) :
        historyPath anchor = .ok priorName := by
      have again := anchored.symm.trans (loadAnchor_eq_some.mpr (loadAnchor_eq_some.mp loaded))
      cases again
      exact priorPath
    refine ⟨fun anchor loaded => ?_, fun old => ⟨?_, fun anchor loaded same => ?_, fresh.2⟩⟩
    · obtain ⟨number, _, counts, _, low', _⟩ := historyPath_eq_ok.mp (isFound loaded)
      exact ⟨number, counts, low'⟩
    · rw [old] at anchored
      exact ⟨found, anchored⟩
    · cases (isFound loaded).symm.trans same
      exact fresh.1 rfl
  · rintro ⟨counts, legacy⟩
    have anchored : ∃ found,
        loadAnchor host id disk (TaskSchema.isVersioned (task.get "schema")) = .ok found := by
      cases versioned : TaskSchema.isVersioned (task.get "schema") with
      | false => exact (legacy versioned).1
      | true =>
          obtain ⟨_, _, _, _, anchor, _⟩ := load_eq_ok.mp loads
          obtain ⟨anchor, anchorIs, _⟩ := anchor versioned
          exact ⟨some anchor, anchorIs⟩
    obtain ⟨found, anchored⟩ := anchored
    have prior : ∃ priorName, historyPath (found.getD (newAnchor host migrated none)) =
        .ok priorName ∧ (found = none → ∃ digest : Text, digest.length = 64 ∧
          priorName = historyName revision digest) := by
      cases found with
      | none => exact ⟨_, historyPath_newAnchor carried low, fun _ => ⟨_, Host.digest_length _, rfl⟩⟩
      | some anchor =>
          have loaded := loadAnchor_eq_some.mp anchored
          obtain ⟨number, counts', low'⟩ := counts anchor (loadAnchor_eq_some.mpr loaded)
          obtain ⟨_, _, _, intact, _⟩ := loaded
          exact ⟨_, historyPath_of_intact intact counts' low', fun absent => by cases absent⟩
    obtain ⟨priorName, priorPath, missing⟩ := prior
    have fresh : PassesChecks host time disk task edited revision := by
      have follows := nextPath
      rw [← priorAnchor_eq anchored] at follows
      refine ⟨migrated, stored, found, priorName, _, prepared, by rwa [idIs], priorPath, follows, ?_⟩
      rw [priorAnchor_eq anchored]
      cases versioned : TaskSchema.isVersioned (task.get "schema") with
      | false =>
          obtain ⟨_, apart, free⟩ := legacy versioned
          refine ⟨fun same => ?_, free⟩
          cases found with
          | none =>
              obtain ⟨digest, long, is⟩ := missing rfl
              have numbers := revision_of_historyName (by omega) low (Host.digest_length _) long
                (same.trans is)
              omega
          | some anchor =>
              rw [versioned] at anchored
              exact apart anchor anchored (same ▸ priorPath)
      | true =>
          rw [versioned] at anchored
          exact fresh_of_versioned loads versioned revisionIs low anchored priorPath
    obtain ⟨⟨stored', after⟩, saves⟩ := saveLocked_ok_iff.mpr fresh
    obtain ⟨migrated', prepared'⟩ := prepare_of_saveLocked saves
    cases prepared.symm.trans prepared'
    exact ⟨after, saves⟩

theorem admission_open (loads : load host surroundings.workspace id disk = .ok task)
    (open_ : ¬ Terminal task) (named : (task.get "state").str?.isSome = true)
    (idle : (task.get "active_child").truthy = false) :
    admission host surroundings.workspace id disk none false = .ok task := by
  obtain ⟨state, is⟩ := Option.isSome_iff_exists.mp named
  rw [Json.str?_eq_some] at is
  have mutable : state ∉ Stage.terminal := fun member => open_ ⟨state, member, is⟩
  rw [admission, loads]
  simp [is, inSet, mutable, idle, require]

/-- A call that mutates a task is an edit and a save. -/
theorem serveMutate_iff {edit : Json → TaskFiles → Except Raised Json} {stored : Json}
    {after : TaskDisk} (plain : task.Plain)
    (loads : load host surroundings.workspace id disk = .ok task) (open_ : ¬ Terminal task)
    (named : (task.get "state").str?.isSome = true)
    (idle : (task.get "active_child").truthy = false)
    (revisionIs : task.get? "revision" = some (.int revision)) :
    serveMutate host surroundings.workspace id time disk (.pure edit) none false (fun files => files) =
        (.ok stored, after) ↔
      ∃ edited, edit task disk.files = .ok edited ∧
        saveLocked host disk task edited revision time = .ok (stored, after) := by
  have same : task.normalize = task := plain
  simp only [serveMutate, admission_open loads open_ named idle, same, LedgerEdit.pure, afterEdit,
    get_of_get? revisionIs, Json.int?, Option.getD_some]
  cases edits : edit task disk.files with
  | error raised => simp [Except.bind]
  | ok edited =>
      simp only [Except.bind, Except.ok.injEq, exists_eq_left']
      cases saves : saveLocked host disk task edited revision time with
      | error raised => simp
      | ok result =>
          obtain ⟨stored', after'⟩ := result
          simp

/-- A transition that is no finalization is an edit and a save. -/
theorem serve_transition_iff {stored : Json} {after : TaskDisk} (plain : task.Plain)
    (loads : load host surroundings.workspace id disk = .ok task) (open_ : ¬ Terminal task)
    (named : (task.get "state").str?.isSome = true)
    (idle : (task.get "active_child").truthy = false)
    (revisionIs : task.get? "revision" = some (.int revision)) (filled : strip reason ≠ [])
    (unfinished : goal ≠ .finalize) :
    (Call.transition goal.name reason).serve host surroundings id time disk = (.ok stored, after) ↔
      ∃ edited, applyTransition host surroundings goal.name reason task disk.files = .ok edited ∧
        saveLocked host disk task edited revision time = .ok (stored, after) := by
  have other : goal.name ≠ text "FINALIZE" := fun same =>
    unfinished (@Stage.name_inj goal .finalize same)
  rw [← serveMutate_iff plain loads open_ named idle revisionIs]
  simp only [Call.serve, filled, if_false, loads, other, and_false]
  cases mutated : serveMutate host surroundings.workspace id time disk
      (.pure (applyTransition host surroundings goal.name reason)) none false fun files => files with
  | mk outcome after' =>
      cases outcome with
      | error raised => simp
      | ok stored' => simp

end

end StateStore

end CarbonLab.Aegis
