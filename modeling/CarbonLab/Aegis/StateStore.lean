import CarbonLab.Aegis.Evidence
import CarbonLab.Aegis.TaskSchema
import Mathlib.Data.List.Sort

/-!
# The store of tasks

`StateStore` of `state_store.py`: a task is a JSON file, with an anchor that names its
digest and a directory of all the anchors so far.  A save replaces these files in one
transaction; here it replaces them at once.  The functions run under the task's lock.
-/

namespace CarbonLab.Aegis

/-- The files of a task. -/
structure TaskDisk where
  /-- The task's directory. -/
  files : TaskFiles
  /-- `task-anchors/<id>.json` -/
  anchor : Option Bytes
  /-- The entries of `task-anchor-history/<id>`, if it exists; what is no regular file
  has no contents. -/
  history : Option (List (Text × Option Bytes))
  deriving DecidableEq

namespace StateStore

/-! ## Anchors -/

/-- `f"{revision:020d}"` -/
def padded (revision : ℤ) : Text :=
  let digits := intText revision
  List.replicate (20 - digits.length) (code '0') ++ digits

/-- The name of an anchor in the history. -/
def historyName (revision : ℤ) (digest : Text) : Text :=
  padded revision ++ text "-" ++ digest ++ text ".json"

/-- `path.suffix == ".json"` -/
def hasJsonSuffix (name : Text) : Bool :=
  5 < name.length && (text ".json").isSuffixOf name

section

variable (host : Host)

/-- `_anchor_digest` -/
def anchorDigest (anchor : Json) : Text := host.digest (anchor.erase "anchor_sha256")

/-- A failure of an entry of the history. -/
def historyFailure : Raised := runtimeError "task anchor history integrity failure"

/-- An entry of the history: its revision and the anchor. -/
def readEntry (id : Text) (entry : Text × Option Bytes) : Except Raised (ℤ × Json) :=
  match entry.2 with
  | none => .error (runtimeError (text "invalid task anchor history entry: " ++ entry.1))
  | some bytes => do
      require (hasJsonSuffix entry.1)
        (runtimeError (text "invalid task anchor history entry: " ++ entry.1))
      match readJson host.floats bytes with
      | none => throw (runtimeError
          (text "invalid task anchor history entry " ++ entry.1 ++ text ": "))
      | some anchor =>
          require anchor.obj?.isSome historyFailure
          require (← inNumbers (anchor.get "schema") [1, 2]) historyFailure
          require ((anchor.get "task_id").equal (.str id)) historyFailure
          match (anchor.get "revision").int?, (anchor.get "anchor_sha256").str? with
          | some revision, some digest =>
              require (0 ≤ revision ∧ digest.length = 64 ∧ digest = anchorDigest host anchor ∧
                entry.1 = historyName revision digest) historyFailure
              return (revision, anchor)
          | _, _ => throw historyFailure

/-- The entries in the order of their names. -/
def byName (entries : List (Text × Option Bytes)) : List (Text × Option Bytes) :=
  entries.insertionSort fun first second => first.1 ≤ second.1

/-- Anchors in the order of their revisions. -/
def byRevision (anchors : List (ℤ × Json)) : List (ℤ × Json) :=
  anchors.insertionSort fun first second => first.1 ≤ second.1

/-- `list(range(start, stop))` -/
def range (start stop : ℤ) : List ℤ :=
  (List.range (stop - start).toNat).map fun offset : ℕ => start + (offset : ℤ)

/-- Each anchor names the one before it. -/
def chained : List (ℤ × Json) → Bool
  | first :: second :: rest =>
      (second.2.get "previous_anchor_sha256").equal (first.2.get "anchor_sha256") &&
        chained (second :: rest)
  | _ => true

/-- The revision at which the history of an anchor starts. -/
def originOf (current : Json) (first : ℤ) : Except Raised ℤ :=
  match (current.getD "history_origin_revision" (.int first)).int? with
  | some origin => .ok origin
  | none => .error ⟨.typeError, "object cannot be interpreted as an integer"⟩

/-- The anchors of the history lead from their origin to the current one. -/
def validateAnchors (anchors : List (ℤ × Json)) (current : Json) : Except Raised Unit := do
  let revisions := anchors.map (·.1)
  require revisions.Nodup
    (runtimeError "task anchor history has invalid or duplicate revisions")
  let origin ← originOf current (revisions.headD 0)
  let last ← host.int (current.getD "revision" (.int (-1)))
  require (revisions = range origin (last + 1)) (runtimeError
    "task anchor history was truncated, extended past state, or made non-contiguous")
  require (chained anchors) (runtimeError "task anchor history chain failure")
  require (anchors.getLast?.any fun anchor =>
      (anchor.2.get "anchor_sha256").equal (current.get "anchor_sha256"))
    (runtimeError "task anchor history head does not match current anchor")

/-- `_validate_anchor_history` -/
def validateAnchorHistory (id : Text) (history : Option (List (Text × Option Bytes)))
    (current : Json) : Except Raised Unit :=
  match history with
  | none => require (¬ (current.get "schema").equal (.int 2))
      (runtimeError "task anchor history is missing")
  | some [] => require (¬ (current.get "schema").equal (.int 2))
      (runtimeError "task anchor history is empty")
  | some entries => do
      let anchors ← (byName entries).mapM (readEntry host id)
      validateAnchors host (byRevision anchors) current

/-- `_load_anchor` -/
def loadAnchor (id : Text) (disk : TaskDisk) (required : Bool) : Except Raised (Option Json) :=
  match disk.anchor with
  | none => do
      require (¬ required) (runtimeError "task state anchor is missing")
      return none
  | some bytes =>
      match readJson host.floats bytes with
      | none => .error (runtimeError "invalid task state anchor: ")
      | some anchor => do
          let failure := runtimeError "task state anchor integrity failure"
          require anchor.obj?.isSome failure
          require (← inNumbers (anchor.get "schema") [1, 2]) failure
          require ((anchor.get "task_id").equal (.str id)) failure
          require ((anchor.get "anchor_sha256").equal (.str (anchorDigest host anchor))) failure
          if (anchor.get "schema").equal (.int 2) then
            let failure := runtimeError "task state anchor has invalid history origin"
            match (anchor.get "history_origin_revision").int? with
            | none => throw failure
            | some origin =>
                require (0 ≤ origin) failure
                let revision ← host.int (anchor.getD "revision" (.int (-1)))
                require (origin ≤ revision) failure
          validateAnchorHistory host id disk.history anchor
          return some anchor

/-- The fields of a new anchor. -/
def anchorFields (task : Json) (previous : Option Json) : List (Text × Json) :=
  [("schema", .int 2), ("task_id", task.get "id"), ("revision", task.get "revision"),
    ("state_sha256", task.get "integrity_sha256"),
    ("previous_anchor_sha256", (previous.map (·.get "anchor_sha256")).getD .null),
    ("history_origin_revision", (previous.map fun anchor =>
      anchor.getD "history_origin_revision" (anchor.getD "revision" (.int 0))).getD (.int 0))]

/-- `_new_anchor` -/
def newAnchor (task : Json) (previous : Option Json) : Json :=
  sealed host "anchor_sha256" (anchorFields task previous)

/-! ## Loading -/

/-- What a finished task asks of its ledger and of the workspace. -/
def validateFinished (workspace : Json) (id : Text) (files : TaskFiles) (task : Json) :
    Except Raised Unit := do
  let records ← Evidence.loadEvidence host id files true
  require ((Evidence.headOf records).equal (task.get "evidence_head"))
    (runtimeError "finalized task evidence head no longer matches its ledger")
  let audited := task.get "final_audit_workspace"
  require (audited.obj?.isSome ∧ audited.get "available" = .bool true ∧
      workspace.get "available" = .bool true ∧
      (workspace.get "sha256").equal (audited.get "sha256"))
    (runtimeError "finalized task workspace no longer matches its audited fingerprint")

/-- `_load_unlocked`; `load` is the same, without a lock. -/
def load (workspace : Json) (id : Text) (disk : TaskDisk) : Except Raised Json :=
  match disk.files.state with
  | none => .error (osError .fileNotFound)
  | some bytes =>
      match readJson host.floats bytes with
      | none => .error (runtimeError "invalid task state JSON: ")
      | some task => do
          TaskSchema.validateTask host task (some id)
          if TaskSchema.isVersioned (task.get "schema") then
            let anchor ← loadAnchor host id disk true
            require (anchor.any fun anchor =>
                (anchor.get "revision").equal (task.get "revision") &&
                  (anchor.get "state_sha256").equal (task.get "integrity_sha256"))
              (runtimeError "task state does not match its durable task anchor")
          if (task.get "state").equal (.str "FINALIZE") then
            validateFinished host workspace id disk.files task
          return task

/-! ## Migration -/

/-- The defaults of fields that older tasks lack. -/
def migrationDefaults : List (Text × Json) :=
  [("material_claim", .bool true), ("evidence_head", .null),
    ("evidence_set_digest", .str (host.sha256 [])), ("implementation_digest", .null),
    ("diff_digest", .null), ("falsification", .null), ("review_receipt", .null),
    ("tdd", .obj (Fields.ofPairs TaskSchema.emptyTdd))]

/-- A dictionary with defaults. -/
def withDefaults (value : Json) (defaults : List (Text × Json)) : Json :=
  defaults.foldl (fun value field => setDefault value field.1 field.2) value

/-- The moves of a task, each with a revision and an epoch. -/
def migrateMoves : (index epoch : ℤ) → List Json → Except Raised (List Json)
  | _, _, [] => .ok []
  | index, epoch, move :: moves => do
      let starts ← inSet (← fetch move "to") ["IMPLEMENT", "REMEDIATE"]
      let epoch := if starts then epoch + 1 else epoch
      let rest ← migrateMoves (index + 1) epoch moves
      return setDefault (setDefault move "revision" (.int index)) "epoch" (.int epoch) :: rest

/-- A task with its integrity digest. -/
def sealTask (task : Json) : Json := reseal host "integrity_sha256" task

/-- `_migrate` -/
def migrate (task : Json) : Except Raised Json := do
  let copy := task.normalize
  let schema ← fetch copy "schema"
  let current := if schema.equal (.int 4) then copy else copy.set "schema" (.int 4)
  let filled := withDefaults current (migrationDefaults host)
  require (filled.get "tdd").obj?.isSome noGet
  let complete := filled.set "tdd" (withDefaults (filled.get "tdd") TaskSchema.emptyTdd)
  match complete.get? "transitions" with
  | none => return sealTask host complete
  | some (.arr moves) =>
      return sealTask host (complete.set "transitions" (.arr (← migrateMoves 1 0 moves)))
  | some other =>
      require ((← iterate other) = []) noGet
      return sealTask host complete

end

/-! ## Append-only history -/

/-- The fields that no save changes. -/
def immutableFields : List Text := ["id", "title", "mode", "complexity", "risk", "created"]

/-- The fields of a cycle that no save changes. -/
def immutableCycleFields : List Text :=
  ["schema", "task_id", "cycle_id", "mode", "remediation", "discovered_epoch",
    "designed_at_revision", "test_contract_digest", "oracle_digest", "baseline_epoch"]

/-- `after[: len(before)] == before`, for a list before. -/
def extends_ (before : List Json) (after : Json) : Except Raised Bool :=
  match after with
  | .arr items => .ok (Json.equalItems (items.take before.length) before)
  | .str _ => .ok false
  | _ => .error ⟨.typeError, "object is not subscriptable"⟩

/-- The items of a list under a key, where a missing key is an empty list. -/
def listD (value : Json) (key : Text) : Json := value.getD key (.arr [])

/-- A cycle that continues another one. -/
def validateCycleChange (old new : Json) : Except Raised Unit := do
  require (← every (fun field => do return (← fetch new field).equal (old.get field))
      immutableCycleFields)
    (runtimeError "TDD cycle identity or frozen contract was rewritten")
  require (← extends_ ((listD old "events").arr?.getD []) (listD new "events"))
    (runtimeError "append-only TDD cycle evidence was rewritten")
  let ended ← inSet (old.get "status") ["TDD_CYCLE_ABORTED", "TDD_CYCLE_COMPLETE"]
  require (ended → new.equal old) (runtimeError "terminal TDD cycle is immutable")

/-- Cycles that continue others, in order. -/
def validateCycleChanges : List Json → List Json → Except Raised Unit
  | old :: olds, new :: news => do
      validateCycleChange old new
      validateCycleChanges olds news
  | _, _ => .ok ()

/-- `left < right` of numbers. -/
def less (left right : Json) : Except Raised Bool :=
  match left.number?, right.number? with
  | some left, some right => .ok (numberLess left right)
  | _, _ => .error ⟨.typeError, "'<' not supported between instances"⟩

/-- The epoch stays or grows by one. -/
def validateEpochChange (old new : Json) : Except Raised Unit := do
  let epoch := (old.getD "change_epoch" (.int 0)).plainInt?.getD 0
  let shrinks ← less (new.getD "change_epoch" (.int 0)) (.int epoch)
  let jumps ← less (.int (epoch + 1)) (new.getD "change_epoch" (.int 0))
  require (¬ shrinks ∧ ¬ jumps)
    (runtimeError "implementation epoch changed non-monotonically")

/-- `item["id"]` of every item. -/
def idsOf (items : List Json) : Except Raised (List Json) := items.mapM fun entry => item entry "id"

/-- No entry is deleted, and none changes what tells it apart. -/
def validateEntries (field : Text) (same : Json → Json → Bool) (deleted rewritten : Text)
    (old new : Json) : Except Raised Unit := do
  let before := (listD old field).arr?.getD []
  let after ← iterate (listD new field)
  let ids ← idsOf after
  ids.forM hash
  require (before.all fun entry => inList (entry.get "id") ids) (runtimeError deleted)
  require (after.all fun entry =>
      (before.reverse.find? fun earlier => (earlier.get "id").Alike (entry.get "id")).all
        (same entry))
    (runtimeError rewritten)

/-- A gate that is still the same. -/
def sameGate (gate old : Json) : Bool :=
  (gate.get "description").equal (old.get "description") &&
    (gate.getD "severity" (.str "high")).equal (old.getD "severity" (.str "high")) &&
    (gate.get "gate_severity").equal (old.get "gate_severity") &&
    (gate.get "created_revision").equal (old.get "created_revision")

/-- A risk that is still the same. -/
def sameRisk (risk old : Json) : Bool :=
  (risk.get "description").equal (old.get "description") &&
    (risk.get "severity").equal (old.get "severity")

/-- `_validate_append_only` -/
def validateAppendOnly (old new : Json) : Except Raised Unit := do
  immutableFields.forM fun field => require ((new.get field).equal (old.get field))
    (runtimeError (text "immutable task field changed: " ++ field))
  [text "decisions", "child_history", "transitions"].forM fun field => do
    require (← extends_ ((listD old field).arr?.getD []) (listD new field))
      (runtimeError (text "append-only task history was rewritten: " ++ field))
  let before := (listD (old.getD "tdd" (.obj [])) "cycles").arr?.getD []
  let after ← fetchD (new.getD "tdd" (.obj [])) "cycles" (.arr [])
  match after.arr? with
  | none => throw ⟨.typeError, "object of type has no len()"⟩
  | some after =>
      require (before.length ≤ after.length) (runtimeError "TDD cycle history cannot be deleted")
      validateCycleChanges before after
      validateEpochChange old new
      validateEntries "gates" sameGate "acceptance gate history cannot be deleted"
        "acceptance gate identity/history was rewritten" old new
      validateEntries "risks" sameRisk "risk history cannot be deleted"
        "risk history was rewritten" old new

end StateStore

end CarbonLab.Aegis
