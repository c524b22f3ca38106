import CarbonLab.Aegis.Implementable
import CarbonLab.Lib.JsonRead

/-!
# Calls that start an implementation

A transition to an implementation that `validate_transition` accepts is stored exactly when
its save can bind every waiver to the next epoch and continue the history of the task.
-/

namespace CarbonLab.Aegis

namespace StateStore

open StateMachine

variable {host : Host} {id : Text}

/-- What an accepted transition to an implementation needs beyond its acceptance, where the
next anchor has a name. -/
structure Implementable (host : Host) (id : Text) (disk : TaskDisk) (task : Json)
    (records : List Json) (revision epoch : ℤ) (name : Text) : Prop where
  waived : ∀ gate ∈ itemsUnder task "gates", WaivedAt records (.str id) (epoch + 1) gate
  continuable : Continuable task
  last : lastNumber 1 (-1) (itemsUnder task "transitions") ≤ revision
  anchorable : Anchorable host id disk task name

/-- What was bound to the epoch before is valid at the next one, or was reopened. -/
structure Renewed (id : Text) (records : List Json) (task stored : Json) (goal : Stage) (epoch : ℤ) :
    Prop where
  state : stored.get "state" = .str goal.name
  epochIs : stored.get "change_epoch" = .int epoch
  gates : itemsUnder stored "gates" = (itemsUnder task "gates").map reopenGate
  waived : ∀ gate ∈ itemsUnder stored "gates", WaivedAt records (.str id) epoch gate
  risks : itemsUnder stored "risks" = (itemsUnder task "risks").map reopenRisk
  attacked : stored.get "falsification" = .null
  reviewed : stored.get "review_receipt" = .null
  evidence : itemsUnder stored "verification_evidence" = []

section

variable {surroundings : Surroundings} {time : Text} {disk : TaskDisk} {task : Json} {goal : Stage}
  {reason : Text} {records : List Json} {from_ : Stage} {revision epoch : ℤ}
  {gates risks moves moved : List Json} {migrated updated turned move : Json}

theorem waivedAt_reopenGate {gate : Json} (waived : WaivedAt records (.str id) epoch gate) :
    WaivedAt records (.str id) epoch (reopenGate gate) := by
  by_cases proven : gate.get "status" = .str "PROVEN"
  · intro now
    obtain ⟨open_, _⟩ := reopenGate_of_proven proven
    rw [open_] at now
    simp at now
  · rw [reopenGate_of_not_proven proven]
    exact waived

/-- A stored task at its next epoch is renewed. -/
theorem renewed_of_advanced {next : Json}
    (situation : Situation host id task from_ revision epoch gates risks moves)
    (advanced : Advanced host task next goal (epoch + 1) (revision + 1) time gates risks moved)
    (waived : ∀ gate ∈ gates, WaivedAt records (.str id) (epoch + 1) gate) :
    Renewed id records task next goal (epoch + 1) := by
  obtain ⟨decisions, handoffs, evidence, listed⟩ := situation.listed
  have gatesIs : itemsUnder next "gates" = (itemsUnder task "gates").map reopenGate := by
    rw [itemsUnder_eq advanced.gates_, itemsUnder_eq listed.gatesIs]
  exact {
    state := get_of_get? advanced.state
    epochIs := get_of_get? advanced.epoch_
    gates := gatesIs
    waived := by
      rw [gatesIs, itemsUnder_eq listed.gatesIs, List.forall_mem_map]
      exact fun gate member => waivedAt_reopenGate (waived gate member)
    risks := by rw [itemsUnder_eq advanced.risks_, itemsUnder_eq listed.risksIs]
    attacked := get_of_get? advanced.attacked
    reviewed := get_of_get? advanced.reviewed
    evidence := itemsUnder_eq advanced.evidence }

/-- An accepted transition to an implementation succeeds, and leaves nothing bound to the
epoch before, exactly when the waivers of the constitution are already bound to the next
epoch, the history of the task can be continued and its anchor can be followed.  Of a task
of schema 2 there is one name, whatever its history is, that must not be taken. -/
theorem transition_implements_iff (numeric : host.floats.Numeric) (timely : strip time ≠ [])
    (loads : load host surroundings.workspace id disk = .ok task) (open_ : ¬ Terminal task)
    (idle : (task.get "active_child").truthy = false)
    (ledger : Evidence.loadEvidence host id disk.files true = .ok records)
    (heads : (Evidence.headOf records).equal (task.get "evidence_head") = true)
    (implementing : goal = .implement ∨ goal = .remediate)
    (accepted : validateTransition host task goal.name reason = .ok ()) :
    ∃ revision epoch digest, task.get "revision" = .int revision ∧
      task.get "change_epoch" = .int epoch ∧ digest.length = 64 ∧
      ∀ history, load host surroundings.workspace id { disk with history := history } = .ok task →
        ((∃ stored after, (Call.transition goal.name reason).serve host surroundings id time
            { disk with history := history } = (.ok stored, after) ∧
            Renewed id records task stored goal (epoch + 1)) ↔
          Implementable host id { disk with history := history } task records revision epoch
            (historyName (revision + 1) digest)) := by
  obtain ⟨bytes, _, reads, valid, _⟩ := load_eq_ok.mp loads
  have plain := plain_of_readJson numeric reads
  obtain ⟨from_, revision, epoch, gates, risks, moves, situation⟩ := situation_of_valid plain valid
  obtain ⟨allowed, edited, move, moved, migrated, updated, edits, migrates, updates, pair, next,
    numbers, ends⟩ := @pair_of_accepted host id task from_ goal revision epoch gates risks moves
      surroundings disk.files reason situation implementing accepted
  obtain ⟨decisions, handoffs, evidence, listed⟩ := situation.listed
  have unfinished : goal ≠ .finalize := by
    rcases implementing with rfl | rfl <;> simp
  have filled := (accepted_move unfinished accepted).1
  have named : (task.get "state").str?.isSome = true := by
    rw [get_of_get? situation.stateIs]
    rfl
  have revisionIs := get_of_get? situation.revisionIs
  have low := situation.low
  have idIs : (task.get "id").str?.getD [] = id := by
    rw [(valid_of_validateTask valid).id_]
    rfl
  have gatesAre := itemsUnder_eq listed.gatesIs
  have movesAre := itemsUnder_eq listed.movesIs
  have carried : migrated.get "revision" = .int revision :=
    get_of_get? ((pair.before.kept _ (by simp [migratedFields, migrationDefaults])).trans
      situation.revisionIs)
  let stored := storedTask host task (updated.set "evidence_set_digest"
    (.str (evidenceSetDigest host records))) revision time
  have prepares (result : Json × Json) :=
    @prepare_next host id task from_ goal revision epoch gates risks moves moved edited.normalize
      edited migrated updated move disk.files records time result situation pair migrates updates next
      allowed numbers ends timely idle ledger heads
  have advanced := @advanced_storedTask host task goal revision epoch gates risks moves moved
    edited.normalize migrated updated move pair
    (records.flatMap fun record => encode ((record.get "record_sha256").str?.getD [])) time
  refine ⟨revision, epoch, anchorDigest host (newAnchor host stored
    (some (priorAnchor host disk migrated))), revisionIs, get_of_get? situation.epochIs,
    Host.digest_length _, fun history loads => ?_⟩
  have serves (stored : Json) (after : TaskDisk) :=
    @serve_transition_iff host id surroundings time { disk with history := history } task goal reason
      revision stored after plain loads open_ named idle situation.revisionIs filled unfinished
  have saves (prepared : prepare host disk.files task edited revision time =
      .ok (migrated, stored)) :=
    @saveLocked_iff_of_prepare host id time { disk with history := history } task revision
      surroundings.workspace edited migrated stored loads idIs revisionIs low prepared carried
      (get_of_get? advanced.revision_)
  constructor
  · rintro ⟨given, after, done, _⟩
    obtain ⟨edited', edits', saved⟩ := (serves given after).mp done
    cases edits.symm.trans edits'
    obtain ⟨migrated', prepared⟩ := prepare_of_saveLocked saved
    obtain ⟨waived, continuable, is⟩ := (prepares _).mp prepared
    cases is
    exact ⟨gatesAre ▸ waived, continuable.1, movesAre ▸ continuable.2,
      (saves prepared).mp ⟨after, saved⟩⟩
  · rintro ⟨waived, continuable, last, anchorable⟩
    rw [gatesAre] at waived
    rw [movesAre] at last
    have prepared := (prepares _).mpr ⟨waived, ⟨continuable, last⟩, rfl⟩
    obtain ⟨after, saved⟩ := (saves prepared).mpr anchorable
    exact ⟨_, after, (serves _ after).mpr ⟨edited, edits, saved⟩,
      renewed_of_advanced situation advanced waived⟩

end

section Waived

/-- Doubles printed by their bits, where no text is read as a NaN. -/
def finiteFloats : FloatText where
  repr := bitFloats.repr
  read _ whole _ _ :=
    match doubleValue (BitVec.ofNat 64 whole) with
    | .finite _ => BitVec.ofNat 64 whole
    | _ => 0
  fractional := bitFloats.fractional
  read_repr bits value finite := by simp [bitFloats, finite]

theorem numeric_finiteFloats : finiteFloats.Numeric := by
  intro negative whole fraction exponent
  unfold Json.Plain
  simp only [finiteFloats]
  have zero : (Json.float 0).normalize = .float 0 := by decide
  cases is : doubleValue (BitVec.ofNat 64 whole) with
  | finite value => simp [Json.normalize, is]
  | _ => exact zero

/-- The record of a waiver, bound to the first epoch. -/
def waiverFields : List (Text × Json) :=
  [("schema", .int 2), ("id", .str "E-1"), ("sequence", .int 1), ("task_id", .str "t-1"),
    ("at", .str "2026-01-01T00:00:00+00:00"), ("kind", .str "external-source"), ("summary", .str "waived"),
    ("provenance", .str "external-source"), ("change_epoch", .int 0),
    ("details", .obj (Fields.ofPairs [("gate_ids", .arr [.str "G-1"]),
      ("waiver_authority", .obj (Fields.ofPairs [("kind", .str "user"), ("trusted", .bool true),
        ("identity", .str "u")]))])), ("previous_sha256", .null)]

/-- The digest of the record of the waiver. -/
def waiverDigest : ℕ := 0x49b25f75399a02962b9c040cb9720e6283b0f6bbc62479b42504fcecdd19d3f6

/-- SHA-256 of no bytes, of the record, of the anchor of its ledger, of the digest of the record,
of the task and its anchor, and of the task at its next epoch. -/
def waivedHost : Host :=
  { tableHost [(0, 0xe3b0c44298fc1c149afbf4c8996fb92427ae41e4649b934ca495991b7852b855),
    (445302464, waiverDigest),
    (667892176, 0x28b6f5d370422f2f7bf8c1b45e4da8e034d8f431ccaf48665963df2f8c2b5689),
    (161419910, 0xb4a5e0f3d1b41e59070028a49420f0640e3d44428724f306cc8f01952d1937b2),
    (424044167, 0x9d4924caae6cd0f574d49a9e24390319321390591400b12a453ccab9d141f86f),
    (690871411, 0xb2805c992782ceb2ddee007493f0d1f5101a541970499eb93836b4d2dd550fc5),
    (165597515, 0x6bebd28c831a2f96f7bb25a501195b87e81ed35ec6ff76ce2ebcc95f3639c230)] with
    floats := finiteFloats }

def waiverRecord : Json := Evidence.sealRecord waivedHost waiverFields

/-- A move of the task. -/
def waivedMove (from_ to_ : Stage) (revision : ℤ) : Json := .obj (Fields.ofPairs
  [("at", .str "2026-01-01T00:00:00+00:00"), ("from", .str from_.name), ("to", .str to_.name),
    ("reason", .str "r"), ("revision", .int revision), ("epoch", .int 0)])

/-- A planned task whose only gate is waived. -/
def waivedTask : Json := sealed waivedHost "integrity_sha256"
  [("schema", .int 4), ("id", .str "t-1"), ("title", .str "t"), ("mode", .str "read"),
    ("complexity", .str "S"), ("risk", .str "low"), ("state", .str "PLAN"), ("revision", .int 4),
    ("created", .str "2026-01-01T00:00:00+00:00"), ("updated", .str "2026-01-01T00:00:00+00:00"),
    ("precheck", .obj []), ("tdd", .obj (Fields.ofPairs TaskSchema.emptyTdd)),
    ("gates", .arr [.obj (Fields.ofPairs [("id", .str "G-1"), ("description", .str "d"),
      ("status", .str "WAIVED"), ("gate_severity", .str "REQUIRED"), ("waiver_reason", .str "r"),
      ("waiver_evidence", .str "E-1")])]),
    ("risks", .arr []), ("decisions", .arr []), ("child_history", .arr []),
    ("verification_evidence", .arr []), ("verification_epoch", .null), ("change_epoch", .int 0),
    ("final_audit_complete", .bool false), ("active_child", .null), ("previous_state", .null),
    ("transitions", .arr [waivedMove .created .discover 1, waivedMove .discover .precheck 2,
      waivedMove .precheck .triage 3, waivedMove .triage .plan 4]),
    ("material_claim", .bool true), ("evidence_head", .str (hexText waiverDigest)),
    ("evidence_set_digest",
      .str (waivedHost.sha256 (encode (hexText waiverDigest)))),
    ("implementation_digest", .null), ("diff_digest", .null), ("falsification", .null),
    ("review_receipt", .null)]

/-- The files of the task, with an anchor of the time before the histories. -/
def waivedDisk : TaskDisk where
  files := ⟨some (Evidence.recordLine waivedHost waiverRecord),
    some (Evidence.anchorText waivedHost (Evidence.sealAnchor waivedHost
      [("schema", .int 1), ("task_id", .str "t-1"), ("count", .int 1),
        ("head_sha256", .str (hexText waiverDigest)), ("task_revision", .null)])),
    some (fileText waivedHost waivedTask)⟩
  anchor := some (fileText waivedHost (sealed waivedHost "anchor_sha256"
    [("schema", .int 1), ("task_id", .str "t-1"), ("revision", .int 4),
      ("state_sha256", waivedTask.get "integrity_sha256")]))
  history := none

example : (waivedTask.get "state").equal (.str Stage.plan.name) = true := by
  decide +kernel

theorem load_waivedDisk : load waivedHost calmSurroundings.workspace "t-1" waivedDisk =
    .ok waivedTask := by
  refine load_eq_ok.mpr ⟨_, rfl, readJson_fileText (by decide +kernel), by decide +kernel, ?_, ?_⟩
  · intro _
    exact ⟨_, loadAnchor_eq_some.mpr ⟨_, rfl, readJson_fileText (by decide +kernel),
      ⟨by decide +kernel, by decide +kernel, by decide +kernel, by decide +kernel,
        fun new => absurd new (by decide +kernel)⟩, by decide +kernel⟩,
      by decide +kernel, by decide +kernel⟩
  · intro finished
    exact absurd finished (by decide +kernel)

theorem open_waivedTask : ¬ Terminal waivedTask := by
  rintro ⟨stage, member, is⟩
  have state : waivedTask.get "state" = .str "PLAN" := by decide +kernel
  rw [state, Json.str.injEq] at is
  subst is
  simp [Stage.terminal] at member

theorem loadEvidence_waivedDisk :
    Evidence.loadEvidence waivedHost "t-1" waivedDisk.files true = .ok [waiverRecord] := by
  decide +kernel

theorem accepted_waivedTask :
    validateTransition waivedHost waivedTask Stage.implement.name "r" = .ok () := by
  decide +kernel

example : (waiverRecord.get "id").equal (.str "E-1") = true := by
  decide +kernel

theorem transition_implements_iff_waived :
    ∃ revision epoch digest, waivedTask.get "revision" = .int revision ∧
      waivedTask.get "change_epoch" = .int epoch ∧ digest.length = 64 ∧
      ∀ history, load waivedHost calmSurroundings.workspace "t-1"
          { waivedDisk with history := history } = .ok waivedTask →
        ((∃ stored after, (Call.transition Stage.implement.name "r").serve waivedHost calmSurroundings
            "t-1" "2026-01-01T00:00:00+00:00" { waivedDisk with history := history } =
              (.ok stored, after) ∧
            Renewed "t-1" [waiverRecord] waivedTask stored .implement (epoch + 1)) ↔
          Implementable waivedHost "t-1" { waivedDisk with history := history } waivedTask
            [waiverRecord] revision epoch (historyName (revision + 1) digest)) :=
  transition_implements_iff numeric_finiteFloats (by decide) load_waivedDisk open_waivedTask
    (by decide +kernel) loadEvidence_waivedDisk (by decide +kernel) (Or.inl rfl) accepted_waivedTask

/-- A task with a validly waived gate cannot enter its implementation. -/
theorem waivedTask_refused :
    waivedHost.floats.Numeric ∧
      load waivedHost calmSurroundings.workspace "t-1" waivedDisk = .ok waivedTask ∧
      ¬ Terminal waivedTask ∧ (waivedTask.get "active_child").truthy = false ∧
      Evidence.loadEvidence waivedHost "t-1" waivedDisk.files true = .ok [waiverRecord] ∧
      (Evidence.headOf [waiverRecord]).equal (waivedTask.get "evidence_head") = true ∧
      (∀ gate ∈ itemsUnder waivedTask "gates",
        validateGateWaiver gate [waiverRecord] (.str "t-1") 0 = .ok true) ∧
      validateTransition waivedHost waivedTask Stage.implement.name "r" = .ok () ∧
      ¬ ∃ stored after, (Call.transition Stage.implement.name "r").serve waivedHost
        calmSurroundings "t-1" "2026-01-01T00:00:00+00:00" waivedDisk = (.ok stored, after) := by
  refine ⟨numeric_finiteFloats, load_waivedDisk, open_waivedTask, by decide +kernel,
    loadEvidence_waivedDisk, by decide +kernel, by decide +kernel, accepted_waivedTask, ?_⟩
  rintro ⟨stored, after, done⟩
  have fails : ((Call.transition Stage.implement.name "r").serve waivedHost calmSurroundings "t-1"
      "2026-01-01T00:00:00+00:00" waivedDisk).1.toOption.isNone = true := by decide +kernel
  rw [done] at fails
  cases fails

end Waived

end StateStore

end CarbonLab.Aegis
