import CarbonLab.Aegis.AppendOnly
import CarbonLab.Aegis.Rollback
import CarbonLab.Aegis.StoreCalls

/-!
# A task at its next epoch

What a transition to `IMPLEMENT` or `REMEDIATE` makes of the gates, the risks and the moves
of a task, and what `validate_task` says of the result.
-/

namespace CarbonLab.Aegis

namespace StateStore

variable {host : Host} {id : Text}

theorem isSome_of_get_ne_null {value : Json} {key : Text} (found : value.get key ≠ .null) :
    value.obj?.isSome = true := by
  cases value with
  | obj fields => rfl
  | _ => exact absurd rfl found

/-- A check that is made only under a condition, before the rest. -/
theorem ite_then_eq_ok {α : Type} {condition : Prop} [Decidable condition]
    {check : Except Raised Unit} {rest : Except Raised α} {value : α} :
    (if condition then (do check; rest) else rest) = .ok value ↔
      (condition → check = .ok ()) ∧ rest = .ok value := by
  split
  · next holds =>
      rw [bind_eq_ok]
      constructor
      · rintro ⟨_, passes, done⟩
        exact ⟨fun _ => passes, done⟩
      · rintro ⟨passes, done⟩
        exact ⟨(), passes holds, done⟩
  · next fails => exact ⟨fun done => ⟨fun holds => absurd holds fails, done⟩, And.right⟩

/-! ## Gates -/

/-- What `validate_task` asks of a gate. -/
theorem validateGate_eq_ok {schema gate : Json} :
    TaskSchema.validateGate schema gate = .ok () ↔
      inSet (gate.get "status") TaskSchema.gateStatuses = .ok true ∧
      isText (gate.get "description") = true ∧
      inSet (gate.getD "severity" (.str "high")) TaskSchema.severities = .ok true ∧
      (∃ known, inSet (gate.get "gate_severity") gateSeverities = .ok known ∧
        (gate.get "gate_severity" = .null ∨ known = true)) ∧
      ∃ evidence, (gate.getD "evidence" (.arr [])).arr? = some evidence ∧
        (distinct evidence = .ok true ∧ evidence.all TaskSchema.isEvidenceId = true) ∧
        ((gate.get "status").equal (.str "PROVEN") = true → evidence ≠ []) ∧
        isAtLeast 0 (gate.getD "created_revision" (.int 0)) = true ∧
        ((gate.get "status").equal (.str "WAIVED") = true ∧ gate.get "gate_severity" = .null →
          TaskSchema.validateLocalWaiver schema gate = .ok ()) ∧
        ((gate.get "status").equal (.str "WAIVED") = true → gate.get "gate_severity" ≠ .null →
          (gate.get "gate_severity").equal (.str "REQUIRED") = true ∧
            TaskSchema.isEvidenceId (gate.get "waiver_evidence") = true) ∧
        ¬ ((gate.get "status").equal (.str "WAIVED") = true ∧
          (gate.getD "severity" (.str "high")).equal (.str "critical") = true ∧
          gate.get "gate_severity" = .null) := by
  simp only [TaskSchema.validateGate, bind_eq_ok, require_eq_ok, exists_const]
  constructor
  · rintro ⟨_, status, rfl, description, _, severity, rfl, known, isKnown, level, rest⟩
    refine ⟨status, description, severity, ⟨known, isKnown, level⟩, ?_⟩
    split at rest
    · cases rest
    · next evidence is =>
        simp only [bind_eq_ok, require_eq_ok, exists_const, ite_then_eq_ok] at rest
        obtain ⟨single, apart, ⟨one, named⟩, proven, created, local_, required, critical⟩ := rest
        subst one
        refine ⟨evidence, is, ⟨apart, named⟩, proven, created, local_, ?_, critical⟩
        intro waived constitutional
        by_contra unfit
        exact required ⟨waived, constitutional, unfit⟩
  · rintro ⟨status, description, severity, ⟨known, isKnown, level⟩, evidence, is, ⟨apart, named⟩,
      proven, created, local_, required, critical⟩
    refine ⟨true, status, rfl, description, true, severity, rfl, known, isKnown, level, ?_⟩
    rw [is]
    simp only [bind_eq_ok, require_eq_ok, exists_const, ite_then_eq_ok]
    refine ⟨true, apart, ⟨rfl, named⟩, proven, created, local_, ?_, critical⟩
    rintro ⟨waived, constitutional, unfit⟩
    exact unfit (required waived constitutional)

section

variable {gate risk : Json} {key : Text}

theorem get?_reopenGate (status : text "status" ≠ key) (evidence : text "evidence" ≠ key) :
    (reopenGate gate).get? key = gate.get? key := by
  unfold reopenGate
  split
  · rw [Json.get?_set_of_ne _ evidence, Json.get?_set_of_ne _ status]
  · rfl

theorem get_reopenGate (status : text "status" ≠ key) (evidence : text "evidence" ≠ key) :
    (reopenGate gate).get key = gate.get key := by
  rw [Json.get, Json.getD, get?_reopenGate status evidence, Json.get, Json.getD]

theorem getD_reopenGate (status : text "status" ≠ key) (evidence : text "evidence" ≠ key)
    {default : Json} : (reopenGate gate).getD key default = gate.getD key default := by
  rw [Json.getD, get?_reopenGate status evidence, Json.getD]

theorem isSome_reopenGate : (reopenGate gate).obj?.isSome = gate.obj?.isSome := by
  unfold reopenGate
  split
  · rw [Json.isSome_set, Json.isSome_set]
  · rfl

theorem plain_reopenGate (plain : gate.Plain) : (reopenGate gate).Plain := by
  unfold reopenGate
  split
  · have opened : (gate.set "status" (.str "OPEN")).Plain := plain.set_ (by simp) (by simp)
    exact opened.set_ (by simp) (Json.plain_arr (by simp))
  · exact plain

/-- A proven gate is opened again, without its evidence. -/
theorem reopenGate_of_proven (proven : gate.get "status" = .str "PROVEN") :
    (reopenGate gate).get "status" = .str "OPEN" ∧
      (reopenGate gate).get? "evidence" = some (.arr []) := by
  have object := isSome_of_get_ne_null (by rw [proven]; simp)
  rw [reopenGate, if_pos (Json.equal_str.mpr proven)]
  constructor
  · rw [Json.get_set_of_ne _ (by simp), Json.get_set_self object]
  · rw [Json.get?_set (Json.isSome_set.trans object), if_pos rfl]

theorem reopenGate_of_not_proven (other : gate.get "status" ≠ .str "PROVEN") :
    reopenGate gate = gate :=
  if_neg fun proven => other (Json.equal_str.mp proven)

/-- A waiver of the time before the constitution that schema 4 accepts. -/
def KeepsWaiver (gate : Json) : Prop :=
  gate.get "status" = .str "WAIVED" → gate.get "gate_severity" = .null →
    gate.get "created_revision" ≠ .null →
    isText (gate.get "waiver_reason") = true ∧
      TaskSchema.isWaiverAuthority (gate.get "waiver_authority") = true

/-- Schema 4 asks the same of local waivers however its number is written. -/
theorem validateLocalWaiver_eq_ok {schema : Json} (new : schema.equal (.int 4) = true) :
    TaskSchema.validateLocalWaiver schema gate = .ok () ↔
      (gate.get "created_revision" ≠ .null → isText (gate.get "waiver_reason") = true ∧
        TaskSchema.isWaiverAuthority (gate.get "waiver_authority") = true) := by
  rw [TaskSchema.validateLocalWaiver, require_eq_ok]
  simp only [new, or_true, true_and]
  tauto

/-- A valid gate is valid under schema 4, up to its local waiver. -/
theorem validateGate_renumbered {schema schema' : Json}
    (valid : TaskSchema.validateGate schema gate = .ok ()) (new : schema'.equal (.int 4) = true) :
    TaskSchema.validateGate schema' gate = .ok () ↔ KeepsWaiver gate := by
  obtain ⟨status, description, severity, level, evidence, is, apart, proven, created, _, required,
    critical⟩ := validateGate_eq_ok.mp valid
  rw [validateGate_eq_ok]
  constructor
  · rintro ⟨_, _, _, _, _, _, _, _, _, local_, _⟩ waived free
    exact (validateLocalWaiver_eq_ok new).mp (local_ ⟨Json.equal_str.mpr waived, free⟩)
  · intro keeps
    refine ⟨status, description, severity, level, evidence, is, apart, proven, created, ?_,
      required, critical⟩
    rintro ⟨waived, free⟩
    exact (validateLocalWaiver_eq_ok new).mpr (keeps (Json.equal_str.mp waived) free)

/-- A valid gate stays valid when it is opened again, up to its local waiver. -/
theorem validateGate_reopenGate {schema schema' : Json}
    (valid : TaskSchema.validateGate schema gate = .ok ()) (new : schema'.equal (.int 4) = true) :
    TaskSchema.validateGate schema' (reopenGate gate) = .ok () ↔ KeepsWaiver gate := by
  obtain ⟨status, description, severity, level, evidence, is, apart, proven, created, _, required,
    critical⟩ := validateGate_eq_ok.mp valid
  by_cases state : gate.get "status" = .str "PROVEN"
  · have notWaived : gate.get "status" ≠ .str "WAIVED" := by
      rw [state]
      simp
    refine iff_of_true ?_ fun waived => absurd waived notWaived
    obtain ⟨open_, cleared⟩ := reopenGate_of_proven state
    have missing : (reopenGate gate).getD "evidence" (.arr []) = .arr [] := by
      rw [Json.getD, cleared, Option.getD_some]
    have same {name : String} (default : Json) (status : "status" ≠ name)
        (evidence : "evidence" ≠ name) :
        (reopenGate gate).getD name default = gate.getD name default :=
      getD_reopenGate (by simpa using status) (by simpa using evidence)
    rw [validateGate_eq_ok, open_, missing, same (.str "high") (by decide) (by decide),
      same (.int 0) (by decide) (by decide), Json.get, same .null (by decide) (by decide), Json.get,
      same .null (by decide) (by decide)]
    refine ⟨inSet_eq_true.mpr ⟨"OPEN", by simp [TaskSchema.gateStatuses], rfl⟩, description,
      severity, level, [], rfl, ⟨rfl, rfl⟩, ?_, created, ?_, ?_, ?_⟩
    · intro other
      rw [Json.equal_str] at other
      simp at other
    · rintro ⟨other, _⟩
      rw [Json.equal_str] at other
      simp at other
    · intro other
      rw [Json.equal_str] at other
      simp at other
    · rintro ⟨other, _⟩
      rw [Json.equal_str] at other
      simp at other
  · rw [reopenGate_of_not_proven state]
    exact validateGate_renumbered valid new

/-! ## Risks -/

theorem get?_reopenRisk (status : text "status" ≠ key) (resolution : text "resolution" ≠ key) :
    (reopenRisk risk).get? key = risk.get? key := by
  unfold reopenRisk
  split
  · rw [Json.get?_erase _ resolution, Json.get?_set_of_ne _ status]
  · rfl

theorem get_reopenRisk (status : text "status" ≠ key) (resolution : text "resolution" ≠ key) :
    (reopenRisk risk).get key = risk.get key := by
  rw [Json.get, Json.getD, get?_reopenRisk status resolution, Json.get, Json.getD]

theorem isSome_reopenRisk : (reopenRisk risk).obj?.isSome = risk.obj?.isSome := by
  unfold reopenRisk
  split
  · rw [Json.isSome_erase, Json.isSome_set]
  · rfl

theorem plain_reopenRisk (plain : risk.Plain) : (reopenRisk risk).Plain := by
  unfold reopenRisk
  split
  · have opened : (risk.set "status" (.str "open")).Plain := plain.set_ (by simp) (by simp)
    exact opened.erase _
  · exact plain

/-- A valid risk stays valid when it is opened again. -/
theorem validateRisk_reopenRisk (valid : TaskSchema.validateRisk risk = .ok ()) :
    TaskSchema.validateRisk (reopenRisk risk) = .ok () := by
  by_cases opens : (risk.get "status").equal (.str "resolved") ∧
      (risk.getD "reopen_on_change" (.bool true)).truthy
  · have resolved := Json.equal_str.mp opens.1
    have object := isSome_of_get_ne_null (by rw [resolved]; simp)
    have open_ : (reopenRisk risk).get "status" = .str "open" := by
      rw [reopenRisk, if_pos opens, Json.get_erase _ (by simp), Json.get_set_self object]
    simp only [TaskSchema.validateRisk, bind_eq_ok, require_eq_ok, exists_const] at valid ⊢
    obtain ⟨_, severity, rfl, _, _, rfl, description, _⟩ := valid
    rw [open_, get_reopenRisk (by simp) (by simp), get_reopenRisk (by simp) (by simp)]
    refine ⟨true, severity, rfl, true,
      inSet_eq_true.mpr ⟨"open", by simp [TaskSchema.riskStatuses], rfl⟩, rfl, description, ?_⟩
    intro other
    rw [Json.equal_str] at other
    simp at other
  · rw [reopenRisk, if_neg opens]
    exact valid

end

/-! ## Lists -/

theorem requireList_iff {task : Json} {field : Text} {items : List Json} :
    TaskSchema.requireList task field = .ok items ↔ task.get? field = some (.arr items) := by
  constructor
  · exact requireList_eq_ok
  · intro found
    rw [TaskSchema.requireList, Json.get, Json.getD, found]
    rfl

/-- The identifier of a handoff, whatever the handoff is. -/
def handoffKey (handoff : Json) : Except Raised Json := do
  let lease ← fetch handoff "lease_id"
  fetchD handoff "handoff_id" lease

/-- What `validate_task` asks of the lists of a task. -/
structure Listed (task : Json) (gates risks decisions handoffs evidence moves : List Json) :
    Prop where
  gatesIs : task.get? "gates" = some (.arr gates)
  risksIs : task.get? "risks" = some (.arr risks)
  decisionsIs : task.get? "decisions" = some (.arr decisions)
  handoffsIs : task.get? "child_history" = some (.arr handoffs)
  evidenceIs : task.get? "verification_evidence" = some (.arr evidence)
  movesIs : task.get? "transitions" = some (.arr moves)
  gateIds : TaskSchema.uniqueIds gates "gate" = .ok ()
  riskIds : TaskSchema.uniqueIds risks "risk" = .ok ()
  decisionIds : TaskSchema.uniqueIds decisions "decision" = .ok ()
  handoffIds : ∃ ids, handoffs.mapM handoffKey = .ok ids ∧ distinct ids = .ok true
  evidenceIds : evidence.all TaskSchema.isEvidenceId = true
  single : distinct evidence = .ok true
  verified : TaskSchema.nullOr (task.get "verification_epoch") (isAtLeast 0) = true
  flags : ∀ field ∈ [text "final_audit_complete", "material_claim"],
    (task.get? field).all (fun value => value = .bool true || value = .bool false) = true
  gates_ : ∀ gate ∈ gates, TaskSchema.validateGate (task.get "schema") gate = .ok ()
  risks_ : ∀ risk ∈ risks, TaskSchema.validateRisk risk = .ok ()
  decisions_ : TaskSchema.validateDecisions [] decisions = .ok ()
  handoffs_ : ∀ handoff ∈ handoffs, TaskSchema.validateHandoff handoff = .ok ()

theorem validateLists_eq_ok {task : Json} : TaskSchema.validateLists task = .ok () ↔
    ∃ gates risks decisions handoffs evidence moves,
      Listed task gates risks decisions handoffs evidence moves := by
  simp only [TaskSchema.validateLists, bind_eq_ok, require_eq_ok, exists_const, requireList_iff]
  constructor
  · rintro ⟨gates, gatesIs, risks, risksIs, decisions, decisionsIs, handoffs, handoffsIs, evidence,
      evidenceIs, moves, movesIs, _, gateIds, _, riskIds, _, decisionIds, ids, keys, _, apart, rfl,
      evidenceIds, _, single, rfl, verified, _, flags, _, gates_, _, risks_, _, decisions_,
      handoffs_⟩
    exact ⟨gates, risks, decisions, handoffs, evidence, moves, gatesIs, risksIs, decisionsIs,
      handoffsIs, evidenceIs, movesIs, gateIds, riskIds, decisionIds, ⟨ids, keys, apart⟩,
      evidenceIds, single, verified,
      fun field member => require_eq_ok.mp (forM_eq_ok.mp flags field member),
      forM_eq_ok.mp gates_, forM_eq_ok.mp risks_, decisions_, forM_eq_ok.mp handoffs_⟩
  · rintro ⟨gates, risks, decisions, handoffs, evidence, moves, listed⟩
    obtain ⟨ids, keys, apart⟩ := listed.handoffIds
    exact ⟨gates, listed.gatesIs, risks, listed.risksIs, decisions, listed.decisionsIs, handoffs,
      listed.handoffsIs, evidence, listed.evidenceIs, moves, listed.movesIs, (), listed.gateIds, (),
      listed.riskIds, (), listed.decisionIds, ids, keys, true, apart, rfl, listed.evidenceIds, true,
      listed.single, rfl, listed.verified, (),
      forM_eq_ok.mpr fun field member => require_eq_ok.mpr (listed.flags field member), (),
      forM_eq_ok.mpr listed.gates_, (), forM_eq_ok.mpr listed.risks_, (), listed.decisions_,
      forM_eq_ok.mpr listed.handoffs_⟩

theorem fetch_congr {first second : Json} {key : Text}
    (object : first.obj?.isSome = second.obj?.isSome) (same : first.get key = second.get key) :
    fetch first key = fetch second key := by
  cases first with
  | obj fields =>
      cases second with
      | obj fields' => exact congrArg Except.ok same
      | _ => cases object
  | _ =>
      cases second with
      | obj fields' => cases object
      | _ => rfl

/-- Entries that keep their identifiers are told apart as before. -/
theorem uniqueIds_map {change : Json → Json} {entries : List Json} {label : Text}
    (object : ∀ entry, (change entry).obj?.isSome = entry.obj?.isSome)
    (same : ∀ entry, (change entry).get "id" = entry.get "id") :
    TaskSchema.uniqueIds (entries.map change) label = TaskSchema.uniqueIds entries label := by
  have keys : (fun entry => fetch entry "id") ∘ change = fun entry => fetch entry "id" :=
    funext fun entry => fetch_congr (object entry) (same entry)
  rw [TaskSchema.uniqueIds, List.mapM_map, keys, TaskSchema.uniqueIds]

/-! ## Moves -/

/-- Where moves lead to. -/
def endOf (from_ : Text) : List Json → Text
  | [] => from_
  | move :: moves => endOf ((move.get "to").str?.getD []) moves

/-- The revision of the last move. -/
def lastRevision (last : ℤ) : List Json → ℤ
  | [] => last
  | move :: moves => lastRevision ((move.get "revision").int?.getD last) moves

theorem endOf_of_validateMoves {versioned : Bool} {from_ reached : Text} {last : ℤ}
    {moves : List Json} (valid : TaskSchema.validateMoves versioned from_ last moves = .ok reached) :
    reached = endOf from_ moves := by
  induction moves generalizing from_ last with
  | nil =>
      cases valid
      rfl
  | cons move moves ih =>
      simp only [TaskSchema.validateMoves, bind_eq_ok, require_eq_ok, exists_const] at valid
      obtain ⟨_, _, _, _, _, _, rest⟩ := valid
      split at rest
      · split at rest
        · simp only [bind_eq_ok] at rest
          obtain ⟨_, _, _, _, _, _, _, _, rest⟩ := rest
          exact ih rest
        · cases rest
      · simp only [bind_eq_ok] at rest
        obtain ⟨_, _, _, _, rest⟩ := rest
        exact ih rest

theorem validateMoves_append {from_ : Text} {last : ℤ} {moves later : List Json} :
    TaskSchema.validateMoves true from_ last (moves ++ later) =
      (do
        let middle ← TaskSchema.validateMoves true from_ last moves
        TaskSchema.validateMoves true middle (lastRevision last moves) later) := by
  induction moves generalizing from_ last with
  | nil => rfl
  | cons move moves ih =>
      rw [List.cons_append]
      simp only [TaskSchema.validateMoves, if_true, bind_assoc, ih]
      cases number : (move.get "revision").int? with
      | none => rfl
      | some revision => simp only [lastRevision, number, bind_assoc, pure_bind, Option.getD_some]

/-! ## The next task -/

/-- The fields that a transition and a save leave as they are. -/
def keptFields : List Text :=
  ["id", "title", "mode", "complexity", "risk", "created", "precheck", "decisions",
    "child_history", "active_child"]

/-- A task that was moved to a stage of the next epoch and prepared for its storage. -/
structure Advanced (host : Host) (task next : Json) (goal : Stage) (epoch revision : ℤ)
    (time : Text) (gates risks moves : List Json) : Prop where
  object : next.obj?.isSome = true
  schema : (next.get "schema").equal (.int 4) = true
  kept : ∀ key ∈ keptFields, next.get? key = task.get? key
  tdd : next.get? "tdd" = some (withDefaults
    ((task.get? "tdd").getD (.obj (Fields.ofPairs TaskSchema.emptyTdd))) TaskSchema.emptyTdd)
  material : next.get? "material_claim" = some (task.getD "material_claim" (.bool true))
  implementation : next.get? "implementation_digest" = some (task.get "implementation_digest")
  diff : next.get? "diff_digest" = some (task.get "diff_digest")
  evidenceSet : ∃ bytes, next.get "evidence_set_digest" = .str (host.sha256 bytes)
  state : next.get? "state" = some (.str goal.name)
  revision_ : next.get? "revision" = some (.int revision)
  epoch_ : next.get? "change_epoch" = some (.int epoch)
  updated : next.get? "updated" = some (.str time)
  previous : (next.get? "previous_state").isSome = true
  gates_ : next.get? "gates" = some (.arr (gates.map reopenGate))
  risks_ : next.get? "risks" = some (.arr (risks.map reopenRisk))
  evidence : next.get? "verification_evidence" = some (.arr [])
  verified : next.get? "verification_epoch" = some .null
  attacked : next.get? "falsification" = some .null
  reviewed : next.get? "review_receipt" = some .null
  audited : next.get? "final_audit_complete" = some (.bool false)
  moves_ : next.get? "transitions" = some (.arr moves)
  integrity : next.get "integrity_sha256" = .str (TaskSchema.stateDigest host next)

theorem inNumbers_of_equal {value : Json} {number : ℤ} {numbers : List ℤ}
    (same : value.equal (.int number) = true) (member : number ∈ numbers) :
    inNumbers value numbers = .ok true := by
  have hashes : hash value = .ok () := by
    cases value with
    | arr items => simp [Json.equal, Json.number?] at same
    | obj fields => simp [Json.equal, Json.number?] at same
    | _ => rfl
  rw [inNumbers, hashes, ok_bind]
  exact congrArg Except.ok (List.any_eq_true.mpr ⟨number, member, same⟩)

theorem get_of_get? {value item : Json} {key : Text} (found : value.get? key = some item) :
    value.get key = item := by
  rw [Json.get, Json.getD, found, Option.getD_some]

/-! ### The development record -/

/-- What `validate_task` asks of the development record of a task. -/
structure Contract (host : Host) (id : Text) (tdd : Json) (cycles : List Json) : Prop where
  object : tdd.obj?.isSome = true
  complete : ∀ field ∈ TaskSchema.emptyTdd, (tdd.get? field.1).isSome = true
  mode : tdd.get "mode" = .null ∨ ∃ name ∈ Assurance.tddModes.map (·.1), tdd.get "mode" = .str name
  flags : ∀ field ∈ [text "test_design_complete", "baseline_executed", "harness_valid",
    "baseline_intact"], tdd.get field = .bool true ∨ tdd.get field = .bool false
  digests : ∀ field ∈ [text "test_contract_digest", "frozen_test_contract_digest", "oracle_digest",
    "frozen_oracle_digest", "baseline_implementation_digest", "observed_implementation_digest"],
    TaskSchema.nullOr (tdd.get field) isSha256 = true
  outcome : tdd.get "baseline_outcome" = .null ∨
    ∃ name ∈ TaskSchema.baselineOutcomes, tdd.get "baseline_outcome" = .str name
  required : tdd.get "required_baseline_outcome" = .null ∨
    ∃ name ∈ TaskSchema.baselineOutcomes, tdd.get "required_baseline_outcome" = .str name
  reason : (tdd.get "semantic_reason").str?.isSome = true
  cyclesAre : tdd.get? "cycles" = some (.arr cycles)
  green : TaskSchema.nullOr (tdd.get "green_epoch") (isAtLeast 1) = true
  each : ∀ cycle ∈ cycles, TaskSchema.validateCycle host id cycle = .ok ()
  apart : distinct (cycles.map (·.get "cycle_id")) = .ok true
  active : TaskSchema.nullOr (tdd.get "active_cycle_id")
    (inList · (cycles.map (·.get "cycle_id"))) = true

theorem inSet_or_null {value : Json} {names : List Text} :
    (∃ known, inSet value names = .ok known ∧ (value = .null ∨ known = true)) ↔
      value = .null ∨ ∃ name ∈ names, value = .str name := by
  rw [← inSet_eq_true]
  constructor
  · rintro ⟨known, passes, null | rfl⟩
    · exact Or.inl null
    · exact Or.inr passes
  · rintro (rfl | passes)
    · exact ⟨false, rfl, Or.inl rfl⟩
    · exact ⟨true, passes, Or.inr rfl⟩

theorem validateTdd_eq_ok {tdd : Json} :
    TaskSchema.validateTdd host id tdd = .ok () ↔ ∃ cycles, Contract host id tdd cycles := by
  have nodup : (TaskSchema.emptyTdd.map (·.1)).Nodup := by simp [TaskSchema.emptyTdd]
  have listed {field : Text × Json} (member : field ∈ TaskSchema.emptyTdd) :
      field ∈ Fields.ofPairs TaskSchema.emptyTdd :=
    Fields.mem_of_get? (Fields.get?_ofPairs member fun pair other same =>
      congrArg Prod.snd (List.inj_on_of_nodup_map nodup other member same))
  have missing : (Fields.ofPairs TaskSchema.emptyTdd).filterMap (fun field =>
      if (tdd.get? field.1).isNone then some field.1 else none) = [] ↔
      ∀ field ∈ TaskSchema.emptyTdd, (tdd.get? field.1).isSome = true := by
    rw [List.filterMap_eq_nil_iff]
    constructor
    · intro absent field member
      have here := absent field (listed member)
      cases is : tdd.get? field.1 with
      | none => simp [is] at here
      | some item => rfl
    · intro all field member
      have here : (tdd.get? field.1).isSome = true := Fields.forall_mem_ofPairs all field member
      rw [if_neg]
      rw [Option.isNone_iff_eq_none]
      exact Option.isSome_iff_ne_none.mp here
  simp only [TaskSchema.validateTdd, bind_eq_ok, require_eq_ok, exists_const, missing]
  constructor
  · rintro ⟨object, complete, known, mode, isMode, _, flags, _, digests, known', outcome, isOutcome,
      known'', required, isRequired, reason, rest⟩
    cases is : (tdd.get "cycles").arr? with
    | none =>
        rw [is] at rest
        cases rest
    | some cycles =>
        rw [is] at rest
        simp only [bind_eq_ok, require_eq_ok, exists_const] at rest
        obtain ⟨green, _, each, _, apart, rfl, active⟩ := rest
        rw [Json.arr?_eq_some] at is
        exact ⟨cycles, object, complete, inSet_or_null.mp ⟨known, mode, isMode⟩,
          fun field member => require_eq_ok.mp (forM_eq_ok.mp flags field member),
          fun field member => require_eq_ok.mp (forM_eq_ok.mp digests field member),
          inSet_or_null.mp ⟨known', outcome, isOutcome⟩,
          inSet_or_null.mp ⟨known'', required, isRequired⟩, reason,
          by rw [Json.get?_of_get_ne_null (by rw [is]; simp), is], green, forM_eq_ok.mp each, apart,
          active⟩
  · rintro ⟨cycles, contract⟩
    obtain ⟨known, mode, isMode⟩ := inSet_or_null.mpr contract.mode
    obtain ⟨known', outcome, isOutcome⟩ := inSet_or_null.mpr contract.outcome
    obtain ⟨known'', required, isRequired⟩ := inSet_or_null.mpr contract.required
    refine ⟨contract.object, contract.complete, known, mode, isMode, (),
      forM_eq_ok.mpr fun field member => require_eq_ok.mpr (contract.flags field member), (),
      forM_eq_ok.mpr fun field member => require_eq_ok.mpr (contract.digests field member), known',
      outcome, isOutcome, known'', required, isRequired, contract.reason, ?_⟩
    rw [get_of_get? contract.cyclesAre, Json.arr?]
    simp only [bind_eq_ok, require_eq_ok, exists_const]
    exact ⟨contract.green, (), forM_eq_ok.mpr contract.each, true, contract.apart, rfl,
      contract.active⟩

/-- A valid development record has all its fields. -/
theorem withDefaults_emptyTdd {tdd : Json} (valid : TaskSchema.validateTdd host id tdd = .ok ()) :
    withDefaults tdd TaskSchema.emptyTdd = tdd := by
  obtain ⟨cycles, contract⟩ := validateTdd_eq_ok.mp valid
  exact withDefaults_eq contract.complete

theorem emptyTdd_valid : TaskSchema.validateTdd host id
    (withDefaults (.obj (Fields.ofPairs TaskSchema.emptyTdd)) TaskSchema.emptyTdd) = .ok () := by
  have complete : withDefaults (.obj (Fields.ofPairs TaskSchema.emptyTdd)) TaskSchema.emptyTdd =
      .obj (Fields.ofPairs TaskSchema.emptyTdd) := by
    refine withDefaults_eq fun field member => ?_
    have nodup : (TaskSchema.emptyTdd.map (·.1)).Nodup := by simp [TaskSchema.emptyTdd]
    have there := Fields.get?_ofPairs member fun pair other same =>
      congrArg Prod.snd (List.inj_on_of_nodup_map nodup other member same)
    rw [Json.get?, Json.obj?, Option.bind_some, there]
    rfl
  rw [complete]
  rfl

/-- A development record with its defaults is valid, also where there was none. -/
theorem validTdd_withDefaults {task : Json}
    (valid : ∀ tdd, task.get? "tdd" = some tdd → TaskSchema.validateTdd host id tdd = .ok ()) :
    TaskSchema.validateTdd host id (withDefaults
      ((task.get? "tdd").getD (.obj (Fields.ofPairs TaskSchema.emptyTdd))) TaskSchema.emptyTdd) =
        .ok () := by
  cases is : task.get? "tdd" with
  | none => exact emptyTdd_valid
  | some given =>
      have here := valid given is
      rw [Option.getD_some, withDefaults_emptyTdd here]
      exact here

/-- The parts of `validate_task`. -/
theorem validateTask_eq_ok {task : Json} :
    TaskSchema.validateTask host task (some id) = .ok () ↔
      TaskSchema.validateHeader task (some id) = .ok id ∧
      (∀ tdd, task.get? "tdd" = some tdd → TaskSchema.validateTdd host id tdd = .ok ()) ∧
      TaskSchema.validateReceipts host id task = .ok () ∧
      TaskSchema.validateLists task = .ok () ∧
      TaskSchema.validateActiveChild host task = .ok () ∧
      TaskSchema.validateHistory task = .ok () ∧
      (TaskSchema.isVersioned (task.get "schema") = true →
        (task.get "integrity_sha256").equal (.str (TaskSchema.stateDigest host task)) = true) := by
  have named {id' : Text} (header : TaskSchema.validateHeader task (some id) = .ok id') :
      id' = id := by
    simp only [TaskSchema.validateHeader, bind_eq_ok, require_eq_ok, exists_const] at header
    obtain ⟨_, _, _, _, _, _, found, _, same, _, _, _, _, _, _, _, _, _, _, _, _, _, _, is⟩ := header
    cases is
    exact (of_decide_eq_true same).symm
  rw [TaskSchema.validateTask]
  simp only [bind_eq_ok]
  constructor
  · rintro ⟨id', header, rest⟩
    obtain rfl := named header
    refine ⟨header, ?_⟩
    split at rest
    · next tdd found =>
        simp only [bind_eq_ok, require_eq_ok] at rest
        obtain ⟨_, here, _, receipts, _, lists, _, child, _, history, integrity⟩ := rest
        refine ⟨fun other same => ?_, receipts, lists, child, history, integrity⟩
        cases found.symm.trans same
        exact here
    · next absent =>
        simp only [bind_eq_ok, require_eq_ok] at rest
        obtain ⟨_, receipts, _, lists, _, child, _, history, integrity⟩ := rest
        refine ⟨fun other same => ?_, receipts, lists, child, history, integrity⟩
        cases absent.symm.trans same
  · rintro ⟨header, tdd, receipts, lists, child, history, integrity⟩
    refine ⟨id, header, ?_⟩
    split
    · next found is =>
        simp only [bind_eq_ok, require_eq_ok]
        exact ⟨(), tdd found is, (), receipts, (), lists, (), child, (), history, integrity⟩
    · simp only [bind_eq_ok, require_eq_ok]
      exact ⟨(), receipts, (), lists, (), child, (), history, integrity⟩

theorem isSha256_sha256 (bytes : Bytes) : isSha256 (.str (host.sha256 bytes)) = true := by
  simp only [isSha256, Json.str?, Option.any_some, Bool.and_eq_true, decide_eq_true_eq,
    List.all_eq_true, isHexDigit]
  exact host.sha256_hex bytes

/-! ### What stays of a valid task -/

/-- A task with the identity of a valid one, at another stage, epoch and revision. -/
structure Headed (task next : Json) (goal : Stage) (epoch revision : ℤ) (time : Text) : Prop where
  object : next.obj?.isSome = true
  schema : (next.get "schema").equal (.int 4) = true
  kept : ∀ key ∈ keptFields, next.get? key = task.get? key
  tdd : (next.get? "tdd").isSome = true
  state : next.get? "state" = some (.str goal.name)
  revision_ : next.get? "revision" = some (.int revision)
  epoch_ : next.get? "change_epoch" = some (.int epoch)
  updated : next.get? "updated" = some (.str time)
  complete : ∀ key ∈ [text "previous_state", "gates", "risks", "verification_evidence",
    "verification_epoch", "final_audit_complete", "transitions"], (next.get? key).isSome = true

namespace Headed

variable {task next : Json} {goal : Stage} {epoch revision : ℤ} {time : Text}

theorem get (headed : Headed task next goal epoch revision time) {key : Text}
    (member : key ∈ keptFields) : next.get key = task.get key := by
  rw [Json.get, Json.getD, headed.kept key member, Json.get, Json.getD]

theorem versioned (headed : Headed task next goal epoch revision time) :
    TaskSchema.isVersioned (next.get "schema") = true := by
  rw [TaskSchema.isVersioned, headed.schema, Bool.or_true]

theorem requireOneOf (headed : Headed task next goal epoch revision time) {key : Text}
    (member : key ∈ keptFields) {names : List Text} {why : Text} :
    TaskSchema.requireOneOf next key names why = TaskSchema.requireOneOf task key names why := by
  rw [TaskSchema.requireOneOf, headed.get member, TaskSchema.requireOneOf]

theorem isSome_of_required (headed : Headed task next goal epoch revision time)
    (complete : TaskSchema.required.filter (fun field => (task.get? field).isNone) = [])
    {field : Text} (member : field ∈ TaskSchema.required) : (next.get? field).isSome = true := by
  have there : (task.get? field).isSome = true := by
    have here := List.filter_eq_nil_iff.mp complete field member
    rw [Option.isNone_iff_eq_none] at here
    exact Option.isSome_iff_ne_none.mpr here
  have schema : (next.get? "schema").isSome = true := by
    rw [Json.get?_of_get_ne_null]
    · rfl
    · intro null
      have same := headed.schema
      rw [null] at same
      cases same
  have moved : ∀ field ∈ [text "schema", "state", "revision", "change_epoch", "updated",
      "previous_state", "gates", "risks", "verification_evidence", "verification_epoch",
      "final_audit_complete", "transitions"], (next.get? field).isSome = true := by
    have complete := headed.complete
    simp only [List.forall_mem_cons, headed.state, headed.revision_, headed.epoch_,
      headed.updated, Option.isSome_some, true_and] at complete ⊢
    exact ⟨schema, complete⟩
  by_cases kept : field ∈ keptFields
  · rw [headed.kept field kept]
    exact there
  · refine moved field ?_
    revert field
    simp [TaskSchema.required, keptFields]

theorem header (headed : Headed task next goal epoch revision time) {id : Text}
    (low : 0 ≤ epoch) (low' : 0 ≤ revision) (timely : strip time ≠ [])
    (header : TaskSchema.validateHeader task (some id) = .ok id) :
    TaskSchema.validateHeader next (some id) = .ok id := by
  simp only [TaskSchema.validateHeader, bind_eq_ok, require_eq_ok, exists_const] at header ⊢
  obtain ⟨_, _, _, _, complete, _, found, named, same, _, mode, _, complexity, _, risk, _, _, title,
    created, _, _, _, precheck, is⟩ := header
  refine ⟨headed.object, true, ?_, rfl, ?_, ?_, found, ?_, same, (), ?_, (), ?_, (), ?_, (), ?_,
    ?_, ?_, ?_, ?_, ?_, ?_, is⟩
  · exact inNumbers_of_equal headed.schema (by simp)
  · exact List.filter_eq_nil_iff.mpr fun field member => by
      rw [Option.isNone_iff_eq_none]
      exact Option.isSome_iff_ne_none.mp (headed.isSome_of_required complete member)
  · exact fun _ => headed.tdd
  · rw [headed.get (by simp [keptFields])]
    exact named
  · rw [headed.requireOneOf (by simp [keptFields])]
    exact mode
  · rw [headed.requireOneOf (by simp [keptFields])]
    exact complexity
  · rw [headed.requireOneOf (by simp [keptFields])]
    exact risk
  · rw [TaskSchema.requireOneOf, get_of_get? headed.state, inSet,
      decide_eq_true (List.mem_map_of_mem goal.mem_all)]
    rfl
  · rw [headed.get (by simp [keptFields])]
    exact title
  · rw [headed.get (by simp [keptFields])]
    exact created
  · rw [get_of_get? headed.updated]
    exact isText_iff.mpr ⟨time, rfl, timely⟩
  · rw [get_of_get? headed.revision_]
    exact isAtLeast_iff.mpr ⟨revision, rfl, low'⟩
  · rw [get_of_get? headed.epoch_]
    exact isAtLeast_iff.mpr ⟨epoch, rfl, low⟩
  · rw [headed.get (by simp [keptFields])]
    exact precheck

theorem child (headed : Headed task next goal epoch revision time)
    (valid : TaskSchema.validateActiveChild host task = .ok ())
    (idle : (task.get "active_child").truthy = false) :
    TaskSchema.validateActiveChild host next = .ok () := by
  have childless : task.get "active_child" = .null := by
    by_contra filled
    rw [TaskSchema.validateActiveChild, if_pos filled] at valid
    simp only [bind_eq_ok, require_eq_ok, exists_const] at valid
    obtain ⟨⟨object, texts⟩, _⟩ := valid
    cases is : task.get "active_child" with
    | obj fields =>
        rw [is] at idle texts
        have empty : fields = [] := by simpa [Json.truthy] using idle
        subst empty
        cases texts
    | _ =>
        rw [is] at object
        cases object
  rw [TaskSchema.validateActiveChild, headed.get (by simp [keptFields]), childless]
  rfl

theorem history_iff (headed : Headed task next goal epoch revision time) {moves : List Json}
    (movesAre : next.get? "transitions" = some (.arr moves)) :
    TaskSchema.validateHistory next = .ok () ↔
      TaskSchema.validateMoves true "CREATED" (-1) moves = .ok goal.name := by
  simp only [TaskSchema.validateHistory, bind_eq_ok, require_eq_ok, requireList_iff,
    headed.versioned, get_of_get? headed.state, movesAre, Option.some.injEq,
    Json.arr.injEq, exists_eq_left', Json.equal_str, Json.str.injEq]
  constructor
  · rintro ⟨reached, walks, rfl⟩
    exact walks
  · intro walks
    exact ⟨_, walks, rfl⟩

end Headed

namespace Advanced

variable {task next : Json} {goal : Stage} {epoch revision : ℤ} {time : Text}
  {gates risks moves : List Json}

theorem headed (advanced : Advanced host task next goal epoch revision time gates risks moves) :
    Headed task next goal epoch revision time := by
  refine ⟨advanced.object, advanced.schema, advanced.kept, ?_, advanced.state, advanced.revision_,
    advanced.epoch_, advanced.updated, ?_⟩
  · rw [advanced.tdd]
    rfl
  · simp only [List.forall_mem_cons, advanced.gates_, advanced.risks_, advanced.evidence,
      advanced.verified, advanced.audited, advanced.moves_, Option.isSome_some, true_and]
    exact ⟨advanced.previous, by simp⟩

/-- The development record of the next task is valid, also where it is a new one. -/
theorem validTdd (advanced : Advanced host task next goal epoch revision time gates risks moves)
    (valid : ∀ tdd, task.get? "tdd" = some tdd → TaskSchema.validateTdd host id tdd = .ok ())
    {tdd : Json} (found : next.get? "tdd" = some tdd) :
    TaskSchema.validateTdd host id tdd = .ok () := by
  rw [advanced.tdd, Option.some.injEq] at found
  subst found
  exact validTdd_withDefaults valid

theorem receipts (advanced : Advanced host task next goal epoch revision time gates risks moves)
    (valid : TaskSchema.validateReceipts host id task = .ok ()) :
    TaskSchema.validateReceipts host id next = .ok () := by
  simp only [TaskSchema.validateReceipts, bind_eq_ok] at valid ⊢
  obtain ⟨_, digests, _⟩ := valid
  have digests := forM_eq_ok.mp digests
  refine ⟨(), forM_eq_ok.mpr ?_, ?_⟩
  · simp only [List.forall_mem_cons, require_eq_ok] at digests ⊢
    obtain ⟨implementation, diff, _⟩ := digests
    obtain ⟨bytes, evidenceSet⟩ := advanced.evidenceSet
    rw [get_of_get? advanced.implementation, get_of_get? advanced.diff, evidenceSet]
    refine ⟨implementation, diff, ?_, by simp⟩
    rw [TaskSchema.nullOr, isSha256_sha256, Bool.or_true]
  · rw [get_of_get? advanced.attacked, get_of_get? advanced.reviewed]
    rfl

/-- The lists of the next task are valid when schema 4 accepts its local waivers. -/
theorem lists_iff (advanced : Advanced host task next goal epoch revision time gates risks moves)
    {decisions handoffs evidence earlier : List Json}
    (listed : Listed task gates risks decisions handoffs evidence earlier) :
    TaskSchema.validateLists next = .ok () ↔ ∀ gate ∈ gates, KeepsWaiver gate := by
  have gateIff {gate : Json} (member : gate ∈ gates) :=
    validateGate_reopenGate (listed.gates_ gate member) advanced.schema
  rw [validateLists_eq_ok]
  constructor
  · rintro ⟨gates', _, _, _, _, _, listed'⟩ gate member
    have same : gates' = gates.map reopenGate := by
      have found := listed'.gatesIs
      rw [advanced.gates_, Option.some.injEq, Json.arr.injEq] at found
      exact found.symm
    subst same
    exact (gateIff member).mp (listed'.gates_ _ (List.mem_map_of_mem member))
  · intro keeps
    refine ⟨gates.map reopenGate, risks.map reopenRisk, decisions, handoffs, [], moves, ?_⟩
    exact {
      gatesIs := advanced.gates_
      risksIs := advanced.risks_
      decisionsIs := (advanced.kept _ (by simp [keptFields])).trans listed.decisionsIs
      handoffsIs := (advanced.kept _ (by simp [keptFields])).trans listed.handoffsIs
      evidenceIs := advanced.evidence
      movesIs := advanced.moves_
      gateIds := by
        rw [uniqueIds_map (fun _ => isSome_reopenGate) fun _ => get_reopenGate (by simp) (by simp)]
        exact listed.gateIds
      riskIds := by
        rw [uniqueIds_map (fun _ => isSome_reopenRisk) fun _ => get_reopenRisk (by simp) (by simp)]
        exact listed.riskIds
      decisionIds := listed.decisionIds
      handoffIds := listed.handoffIds
      evidenceIds := rfl
      single := rfl
      verified := by
        rw [get_of_get? advanced.verified]
        rfl
      flags := by
        simp only [List.forall_mem_cons, advanced.audited, advanced.material]
        refine ⟨rfl, ?_, by simp⟩
        have flag := listed.flags "material_claim" (by simp)
        rw [Json.getD]
        cases is : task.get? "material_claim" with
        | none => rfl
        | some value =>
            rw [is] at flag
            exact flag
      gates_ := by
        intro gate member
        obtain ⟨given, inside, rfl⟩ := List.mem_map.mp member
        exact (gateIff inside).mpr (keeps given inside)
      risks_ := by
        intro risk member
        obtain ⟨given, inside, rfl⟩ := List.mem_map.mp member
        exact validateRisk_reopenRisk (listed.risks_ given inside)
      decisions_ := listed.decisions_
      handoffs_ := listed.handoffs_ }

/-- The next task is valid when schema 4 accepts its local waivers and its moves. -/
theorem valid_iff (advanced : Advanced host task next goal epoch revision time gates risks moves)
    (low : 0 ≤ epoch) (low' : 0 ≤ revision) (timely : strip time ≠ [])
    (valid : TaskSchema.validateTask host task (some id) = .ok ())
    {decisions handoffs evidence earlier : List Json}
    (listed : Listed task gates risks decisions handoffs evidence earlier)
    (idle : (task.get "active_child").truthy = false) :
    TaskSchema.validateTask host next (some id) = .ok () ↔
      (∀ gate ∈ gates, KeepsWaiver gate) ∧
        TaskSchema.validateMoves true "CREATED" (-1) moves = .ok goal.name := by
  obtain ⟨header, tdd, receipts, _, child, _, _⟩ := validateTask_eq_ok.mp valid
  rw [validateTask_eq_ok, advanced.lists_iff listed, advanced.headed.history_iff advanced.moves_]
  constructor
  · rintro ⟨_, _, _, keeps, _, walks, _⟩
    exact ⟨keeps, walks⟩
  · rintro ⟨keeps, walks⟩
    exact ⟨advanced.headed.header low low' timely header, fun _ => advanced.validTdd tdd,
      advanced.receipts receipts, keeps, advanced.headed.child child idle, walks,
      fun _ => Json.equal_str.mpr advanced.integrity⟩

end Advanced

end StateStore

end CarbonLab.Aegis
