import CarbonLab.Aegis.Dynamic
import CarbonLab.Aegis.Redaction
import CarbonLab.Aegis.Seal
import CarbonLab.Lib.HashChain

/-!
# The evidence ledger

`evidence.py`: an append-only file of JSON lines in which each record names the digest of
the one before it, and an anchor file with the count and the digest of the last record.
The functions run under the ledger's lock; an atomic replacement of a file is one step.
-/

namespace CarbonLab.Aegis

/-- The files of a task directory that the ledger reads. -/
structure TaskFiles where
  /-- `evidence.jsonl` -/
  ledger : Option Bytes
  /-- `evidence-head.json` -/
  anchor : Option Bytes
  /-- `state.json` -/
  state : Option Bytes
  deriving DecidableEq, Repr

namespace Evidence

/-- `EVIDENCE_KINDS` -/
def evidenceKinds : List Text :=
  ["baseline-test", "command", "verification-command", "observation", "external-source",
    "decision", "recovery", "mutation", "audit", "test"]

/-- `PROVENANCE_TYPES` -/
def provenanceTypes : List Text :=
  ["manual", "framework-command", "verified-observation", "external-source"]

/-- `_TERMINAL_TASK_STATES` -/
def terminalTaskStates : List Text := ["FAILED", "FINALIZE", "CANCELLED", "ABANDONED"]

/-- A failure at a line. -/
def atLine (what : Text) (line : ℕ) (why : Text) : Raised :=
  runtimeError (text "evidence " ++ what ++ text " at line " ++ intText line ++ why)

/-- A schema failure at a line. -/
def schemaFailure (line : ℕ) (why : Text) : Raised :=
  atLine "schema failure" line (text ": " ++ why)

/-- The fields that every record has, in order. -/
def required : List Text := ["at", "details", "id", "kind", "previous_sha256", "summary"]

section

variable (host : Host) (task : Text)

/-- What schema 2 asks of a record. -/
def validateSchemaTwo (line : ℕ) (body : Json) : Except Raised Unit := do
  require ((body.get "task_id").equal (.str task)) (atLine "task mismatch" line [])
  require ((body.get "sequence").equal (.int line)) (atLine "sequence failure" line [])
  require (← inSet (body.get "kind") evidenceKinds) (schemaFailure line "invalid kind")
  require (← inSet (body.get "provenance") provenanceTypes)
    (schemaFailure line "invalid provenance")
  require ((body.get "change_epoch").plainInt?.any (0 ≤ ·)) (schemaFailure line "invalid epoch")

/-- The fields that a record lacks. -/
def missing (body : Json) : List Text := required.filter fun name => (body.get? name).isNone

/-- What every schema asks of a record whose digest is right. -/
def validateBody (line : ℕ) (body previous : Json) : Except Raised Unit := do
  require ((body.get "previous_sha256").equal previous) (atLine "chain failure" line [])
  require (missing body = []) (schemaFailure line (text "missing " ++ commas (missing body)))
  require ((body.get "id").str?.any (startsWith "E-")) (schemaFailure line "invalid id")
  require ((body.get "summary").str?.any (strip · ≠ [])) (schemaFailure line "empty summary")
  require (body.get "details").obj?.isSome (schemaFailure line "details is not an object")
  let schema := body.getD "schema" (.int 1)
  if schema.equal (.int 1) then return
  else
    require (schema.equal (.int 2)) (schemaFailure line "unsupported schema")
    validateSchemaTwo task line body

/-- `_validate_record`, where the sequence number is the line number. -/
def validateRecord (line : ℕ) (previous record : Json) : Except Raised Unit := do
  require record.obj?.isSome (schemaFailure line "record is not an object")
  let body := record.erase "record_sha256"
  require ((record.get "record_sha256").equal (.str (host.digest body)))
    (atLine "integrity failure" line [])
  validateBody task line body previous

/-- `_anchor_digest` -/
def anchorDigest (anchor : Json) : Text := host.digest (anchor.erase "anchor_sha256")

/-- `_load_anchor` -/
def loadAnchor (anchor : Option Bytes) : Except Raised (Option Json) :=
  match anchor with
  | none => .ok none
  | some bytes =>
      match readJson host.floats bytes with
      | none => .error (runtimeError "invalid evidence anchor: ")
      | some anchor => do
          require (anchor.obj?.isSome ∧ (anchor.get "schema").equal (.int 1) ∧
              (anchor.get "task_id").equal (.str task) ∧
              (anchor.get "anchor_sha256").equal (.str (anchorDigest host anchor)))
            (runtimeError "evidence anchor integrity failure")
          return some anchor

/-- The white space of Python bytes. -/
def isByteSpace (byte : UInt8) : Bool := byte = 32 || (9 ≤ byte && byte ≤ 13)

/-- `record.get("id")` as a member of a set. -/
def identify (record : Json) : Except Raised Json :=
  match record, record.get "id" with
  | .obj _, .arr _ => .error ⟨.typeError, "unhashable type: 'list'"⟩
  | .obj _, .obj _ => .error ⟨.typeError, "unhashable type: 'dict'"⟩
  | .obj _, id => .ok id
  | _, _ => .error ⟨.attributeError, "object has no attribute 'get'"⟩

/-- `json.loads(line)` in the loop. -/
def readLine (line : ℕ) (raw : Bytes) : Except Raised Json :=
  match loadsBytes host.floats raw with
  | some record => .ok record
  | none => .error (atLine "JSON failure" line (text ": "))

/-- The loop of `load_evidence` over the lines. -/
def loadLines (verify : Bool) : (line : ℕ) → (previous : Json) → (ids : List Json) →
    List Bytes → Except Raised (List Json)
  | _, _, _, [] => .ok []
  | line, previous, ids, raw :: rest => do
      require (¬ raw.all isByteSpace) (schemaFailure line "blank records are forbidden")
      let record ← readLine host line raw
      if verify then validateRecord host task line previous record else pure ()
      let id ← identify record
      require (¬ inList id ids) (runtimeError (text "duplicate evidence id at line " ++
        intText line ++ text ": " ++ id.str?.getD (host.repr id)))
      let records ← loadLines verify (line + 1) (record.get "record_sha256") (id :: ids) rest
      return record :: records

/-- The digest of the last record. -/
def headOf (records : List Json) : Json :=
  HashChain.endMark (·.get "record_sha256") .null records

/-- The anchor, if there is one, is that of the records. -/
def checkAnchor (anchor : Option Bytes) (records : List Json) : Except Raised Unit := do
  let anchor ← loadAnchor host task anchor
  require (anchor.all fun anchor => (anchor.get "count").equal (.int records.length) &&
      (anchor.get "head_sha256").equal (headOf records))
    (runtimeError "evidence ledger does not match task evidence anchor")

/-- `load_evidence` -/
def loadEvidence (files : TaskFiles) (verify : Bool) : Except Raised (List Json) :=
  match files.ledger with
  | none => do
      let anchor ← loadAnchor host task files.anchor
      require (anchor.all fun anchor => !(anchor.get "count").truthy)
        (runtimeError "evidence anchor references missing ledger")
      return []
  | some raw => do
      require (WholeLines raw) (runtimeError "evidence ledger has a truncated tail")
      let records ← loadLines host task verify 1 .null [] (splitlines raw)
      if verify then checkAnchor host task files.anchor records else pure ()
      return records

end

/-! ## The tail -/

/-- The loop of `_tail_record`: blocks of 64 KiB from the end to the last line feed. -/
def scanBack (raw : Bytes) : (fuel stop : ℕ) → (found : Bytes) → Bytes
  | 0, _, found => found
  | fuel + 1, stop, found =>
      if stop = 0 then found
      else
        let start := stop - 64 * 1024
        let block := (raw.take stop).drop start
        if 10 ∈ block then lastLine block ++ found
        else scanBack raw fuel start (block ++ found)

section

variable (host : Host) (task : Text)

/-- `_tail_record` -/
def tailRecord (ledger : Option Bytes) : Except Raised (Option Json) :=
  match ledger with
  | none => .ok none
  | some raw =>
      if raw = [] then .ok none
      else if raw.getLast? ≠ some 10 then
        .error (runtimeError "evidence ledger has a truncated tail")
      else
        let line := scanBack raw (raw.length - 1) (raw.length - 1) []
        if line.all isByteSpace then
          .error (runtimeError "evidence ledger has a blank tail record")
        else
          match loadsBytes host.floats line with
          | some record => .ok (some record)
          | none => .error (runtimeError "evidence JSON failure at tail: ")

/-- `json.loads(line)` of `_recover_stale_anchor`. -/
def chainLine (raw : Bytes) : Except Raised Json :=
  match loadsBytes host.floats raw with
  | some record => .ok record
  | none => .error (valueError [])

/-- The loop of `_recover_stale_anchor`. -/
def chainLines : (line : ℕ) → (previous : Json) → List Bytes → Except Raised (List Json)
  | _, _, [] => .ok []
  | line, previous, raw :: rest => do
      let record ← chainLine host raw
      validateRecord host task line previous record
      let records ← chainLines (line + 1) (record.get "record_sha256") rest
      return record :: records

/-- `items[index]` -/
def index (items : List Json) (position : ℤ) : Except Raised Json :=
  let place := if position < 0 then position + items.length else position
  match if place < 0 then none else items[place.toNat]? with
  | some item => .ok item
  | none => .error ⟨.keyError, "list index out of range"⟩

/-- An anchor with its digest. -/
def sealAnchor (fields : List (Text × Json)) : Json := sealed host "anchor_sha256" fields

/-- The revision in a record's details. -/
def revisionOf (record : Json) : Json := (record.get "details").get "task_revision"

/-- The digest of the last of the first records. -/
def anchoredHead (records : List Json) (count : ℤ) : Except Raised Json :=
  if count = 0 then .ok .null
  else do
    let record ← index records (count - 1)
    return record.get "record_sha256"

/-- The anchor that `_recover_stale_anchor` writes. -/
def repairedAnchor (records : List Json) (last : Json) (count : ℤ) : Json :=
  sealAnchor host [("schema", .int 1), ("task_id", .str task), ("count", .int records.length),
    ("head_sha256", last.get "record_sha256"), ("task_revision", revisionOf last),
    ("recovered_append_count", .int (records.length - count))]

/-- `_recover_stale_anchor` up to its write: the anchor to write, if any. -/
def recoverStaleAnchor (anchor : Json) (raw : Bytes) : Except Raised (Option Json) := do
  require (WholeLines raw) (runtimeError "evidence ledger has a truncated tail")
  let records ← chainLines host task 1 .null (splitlines raw)
  let count ← host.int (anchor.getD "count" (.int 0))
  require (count ≤ records.length)
    (runtimeError "evidence ledger was truncated behind its anchor")
  let anchored ← anchoredHead records count
  require (anchored.equal (anchor.get "head_sha256"))
    (runtimeError "evidence history before the durable anchor was rewritten")
  if count = records.length then return none
  else
    let last ← index records (-1)
    return some (repairedAnchor host task records last count)

end

/-! ## Programs -/

/-- The steps that the ledger's functions take. -/
inductive Call
  | look
  /-- `os.open(path, O_CREAT | O_APPEND | O_WRONLY)` -/
  | openLedger
  | appendByte (byte : UInt8)
  | replaceLedger (contents : Bytes)
  | replaceAnchor (contents : Bytes)
  | now
  | uuid
  deriving DecidableEq

/-- What a step returns. -/
def Call.Reply : Call → Type
  | .look => TaskFiles
  | .now | .uuid => Text
  | _ => Unit

/-- A step that changes the ledger or the anchor. -/
def Call.writes : Call → Bool
  | .openLedger | .appendByte _ | .replaceLedger _ | .replaceAnchor _ => true
  | _ => false

/-- The task directory and the ticks of the clock that were read. -/
structure Store where
  files : TaskFiles
  ticks : ℕ

/-- Serve a step. -/
def serve (host : Host) : (call : Call) → Store → call.Reply × Store
  | .look, store => (store.files, store)
  | .openLedger, store =>
      ((), { store with files.ledger := some (store.files.ledger.getD []) })
  | .appendByte byte, store =>
      ((), { store with files.ledger := store.files.ledger.map (· ++ [byte]) })
  | .replaceLedger contents, store => ((), { store with files.ledger := some contents })
  | .replaceAnchor contents, store => ((), { store with files.anchor := some contents })
  | .now, store => (host.entropy.now store.ticks, { store with ticks := store.ticks + 1 })
  | .uuid, store => (host.entropy.uuid store.ticks, { store with ticks := store.ticks + 1 })

/-- A function of the ledger. -/
abbrev LedgerProgram (α : Type) := Program Call Call.Reply Raised α

/-- What was computed without a step. -/
def LedgerProgram.ofExcept {α : Type} : Except Raised α → LedgerProgram α
  | .ok value => .pure value
  | .error error => .raise error

/-- The files as they are. -/
def look : LedgerProgram TaskFiles := .act .look .pure

@[inherit_doc Call.openLedger]
def openLedger : LedgerProgram Unit := .act .openLedger .pure

/-- `atomic_write_bytes` of the ledger. -/
def replaceLedger (contents : Bytes) : LedgerProgram Unit :=
  .act (.replaceLedger contents) .pure

/-- `atomic_write_json` of the anchor. -/
def replaceAnchor (contents : Bytes) : LedgerProgram Unit :=
  .act (.replaceAnchor contents) .pure

/-- `now()` -/
def now : LedgerProgram Text := .act .now .pure

/-- `uuid.uuid4().hex` -/
def uuid : LedgerProgram Text := .act .uuid .pure

/-- `os.write` until everything is written, and `os.fsync`. -/
def writeBytes : Bytes → LedgerProgram Unit
  | [] => .pure ()
  | byte :: bytes => .act (.appendByte byte) fun _ => writeBytes bytes

/-- The arguments of `append_evidence`. -/
structure Arguments where
  kind : Text
  summary : Text
  provenance : Text
  /-- `_provenance_token is _FRAMEWORK_PROVENANCE_TOKEN` -/
  framework : Bool
  evidenceId : Option Text
  taskId : Option Text
  details : List (Text × Value)

section

variable (host : Host) (task : Text)

/-- An argument among the details. -/
def Arguments.detail? (arguments : Arguments) (name : Text) : Option Value :=
  (arguments.details.find? (·.1 = name)).map (·.2)

/-- The change epoch among the details. -/
def Arguments.epoch? (arguments : Arguments) : Option ℤ :=
  match (arguments.detail? "change_epoch").getD (.int 0) with
  | .int epoch => if epoch < 0 then none else some epoch
  | _ => none

/-- The checks of `append_evidence` before it touches the disk; the change epoch. -/
def checkArguments (arguments : Arguments) : Except Raised ℤ := do
  require (arguments.kind ∈ evidenceKinds) (valueError "unknown evidence kind: ")
  require (arguments.provenance ∈ provenanceTypes) (valueError "unknown evidence provenance: ")
  require (arguments.provenance = text "manual" ∨ arguments.framework)
    (valueError
      "non-manual evidence provenance can be minted only by a framework observation boundary")
  require (strip arguments.summary ≠ []) (valueError "evidence summary must not be empty")
  require (arguments.taskId.all fun given => given = [] || given = task)
    (valueError "evidence task id does not match owning task directory")
  match arguments.epoch? with
  | some epoch => return epoch
  | none => throw (valueError "evidence change_epoch must be a non-negative integer")

/-- The task's state must allow new evidence. -/
def checkTaskState (state : Option Bytes) : Except Raised Unit :=
  match state with
  | none => .ok ()
  | some bytes =>
      match readJson host.floats bytes with
      | none => .error (runtimeError "cannot validate task state before evidence append: ")
      | some task =>
          match task.get "state" with
          | .str name => require (name ∉ terminalTaskStates)
              (runtimeError (text "terminal task state " ++ name ++ text " rejects evidence append"))
          | _ => .error (runtimeError "cannot validate task state before evidence append")

/-- Compare the anchor with the tail of the ledger: an anchor to repair, if any. -/
def compareTail (anchor : Json) (ledger : Option Bytes) (tail : Option Json) :
    Except Raised (Option Json) :=
  if (anchor.get "count").equal (.int 0) then do
    require (tail = none) (runtimeError "evidence anchor/ledger count mismatch")
    return none
  else
    match tail with
    | none => .error (runtimeError "evidence ledger tail does not match anchor")
    | some tail => do
        require tail.obj?.isSome ⟨.attributeError, "object has no attribute 'get'"⟩
        if (tail.get "record_sha256").equal (anchor.get "head_sha256") then return none
        else recoverStaleAnchor host task anchor (ledger.getD [])

/-- What `append_evidence` takes from the ledger and its anchor: the digest and the number
of the last record, and an anchor to repair before. -/
def selectAnchor (files : TaskFiles) : Except Raised (Json × ℤ × Option Json) := do
  match ← loadAnchor host task files.anchor with
  | none =>
      let existing ← loadEvidence host task files true
      return (headOf existing, existing.length, none)
  | some anchor =>
      let tail ← tailRecord host files.ledger
      let repaired ← compareTail host task anchor files.ledger tail
      let count ← host.int ((repaired.getD anchor).getD "count" (.int 0))
      return ((repaired.getD anchor).get "head_sha256", count, repaired)

/-- The record without its digest. -/
def recordBody (arguments : Arguments) (epoch : ℤ) (id at_ : Text) (previous : Json) (count : ℤ) :
    List (Text × Json) :=
  [("schema", .int 2), ("id", .str id), ("sequence", .int (count + 1)),
    ("task_id", .str task), ("at", .str at_), ("kind", .str arguments.kind),
    ("summary", .str (host.redactText (strip arguments.summary))),
    ("provenance", .str arguments.provenance), ("change_epoch", .int epoch),
    ("details", host.redact (.dict (arguments.details.map fun detail => (.str detail.1, detail.2)))),
    ("previous_sha256", previous)]

/-- A record with its digest. -/
def sealRecord (body : List (Text × Json)) : Json := sealed host "record_sha256" body

/-- The line of a record. -/
def recordLine (record : Json) : Bytes := jsonLine host.floats .compact record

/-- The contents of an anchor file. -/
def anchorText (anchor : Json) : Bytes := jsonLine host.floats .indented anchor

/-- The anchor of a record: its revision is not redacted. -/
def newAnchor (count : ℤ) (record revision : Json) : Json :=
  sealAnchor host [("schema", .int 1), ("task_id", .str task), ("count", .int (count + 1)),
    ("head_sha256", record.get "record_sha256"), ("task_revision", revision)]

/-- The write of `_recover_stale_anchor`. -/
def repairAnchor : Option Json → LedgerProgram Unit
  | some anchor => replaceAnchor (anchorText host anchor)
  | none => pure ()

/-- The identifier of a new record. -/
def chooseId (arguments : Arguments) : LedgerProgram Text :=
  match arguments.evidenceId with
  | some given => if given = [] then do return text "E-" ++ (← uuid) else pure given
  | none => do return text "E-" ++ (← uuid)

/-- Write a record and its anchor. -/
def writeRecord (arguments : Arguments) (count : ℤ) (record : Json) : LedgerProgram Json := do
  openLedger
  writeBytes (recordLine host record)
  match host.json ((arguments.detail? "task_revision").getD .null) with
  | none => throw ⟨.typeError, "'<' not supported between instances"⟩
  | some revision =>
      replaceAnchor (anchorText host (newAnchor host task count record revision))
      return record

/-- `append_evidence` -/
def appendEvidence (arguments : Arguments) : LedgerProgram Json := do
  let epoch ← LedgerProgram.ofExcept (checkArguments task arguments)
  let files ← look
  LedgerProgram.ofExcept (checkTaskState host files.state)
  let selected ← LedgerProgram.ofExcept (selectAnchor host task files)
  repairAnchor host selected.2.2
  let id ← chooseId arguments
  let at_ ← now
  writeRecord host task arguments selected.2.1
    (sealRecord host (recordBody host task arguments epoch id at_ selected.1 selected.2.1))

/-- The anchor that `rollback_last_evidence` installs. -/
def priorAnchor (prior : List Json) : Json :=
  sealAnchor host [("schema", .int 1), ("task_id", .str task), ("count", .int prior.length),
    ("head_sha256", headOf prior),
    ("task_revision", ((prior.getLast?).map revisionOf).getD .null)]

/-- The checks of `rollback_last_evidence`; the records that stay. -/
def checkRollback (digest : Text) (files : TaskFiles) : Except Raised (List Json) := do
  let records ← loadEvidence host task files true
  require (records ≠ [] ∧ (headOf records).equal (.str digest))
    (runtimeError "evidence rollback target is not the verified ledger tail")
  let anchor ← loadAnchor host task files.anchor
  require anchor.isSome (runtimeError "evidence rollback requires a durable current anchor")
  return records.dropLast

/-- The postcondition of `rollback_last_evidence`. -/
def checkRolledBack (prior : List Json) (files : TaskFiles) : Except Raised Unit := do
  let verified ← loadEvidence host task files true
  require (verified.length = prior.length ∧ (headOf verified).equal (headOf prior))
    (runtimeError "evidence rollback postcondition failed")

/-- `rollback_last_evidence` -/
def rollbackLastEvidence (digest : Text) : LedgerProgram Unit := do
  LedgerProgram.ofExcept (require (digest.length = 64)
    (valueError "rollback requires a canonical evidence record digest"))
  let files ← look
  let prior ← LedgerProgram.ofExcept (checkRollback host task digest files)
  replaceAnchor (anchorText host (priorAnchor host task prior))
  replaceLedger (prior.flatMap (recordLine host))
  let files ← look
  LedgerProgram.ofExcept (checkRolledBack host task prior files)

end

end Evidence

end CarbonLab.Aegis
