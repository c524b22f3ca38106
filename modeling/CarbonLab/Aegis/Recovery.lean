import CarbonLab.Aegis.AtomicFiles

/-!
# Recovery of transactions

`transaction.py` from `_read_recovery_journal` to `_recover_candidates`: the journals of a
state directory are read, every one of them becomes a plan, the plans are checked against
each other and against their destinations, and only then are they applied.
-/

namespace CarbonLab.Aegis

/-- `raise TransactionError(message)` -/
def transactionError (message : Text) : Raised := ⟨.transactionError, message⟩

/-! ## Values in a journal -/

/-- The value of a base64 digit. -/
def base64Value (letter : CodePoint) : Option ℕ :=
  if 65 ≤ letter.val ∧ letter.val ≤ 90 then some (letter.val - 65)
  else if 97 ≤ letter.val ∧ letter.val ≤ 122 then some (letter.val - 71)
  else if 48 ≤ letter.val ∧ letter.val ≤ 57 then some (letter.val + 4)
  else if letter = code '+' then some 62
  else if letter = code '/' then some 63
  else none

/-- `base64.b64decode(string, validate=True)` -/
def b64decode : Text → Option Bytes
  | [] => some []
  | first :: second :: third :: fourth :: rest => do
      let one ← base64Value first
      let two ← base64Value second
      let byte := UInt8.ofNat (one * 4 + two / 16)
      if third = code '=' ∧ fourth = code '=' ∧ rest = [] then return [byte]
      else
        let three ← base64Value third
        let next := UInt8.ofNat (two * 16 + three / 4)
        if fourth = code '=' ∧ rest = [] then return [byte, next]
        else
          let four ← base64Value fourth
          let bytes ← b64decode rest
          return byte :: next :: UInt8.ofNat (three * 64 + four) :: bytes
  | _ => none

namespace Host

variable (host : Host)

/-- `_sha` -/
def sha (data : Option Bytes) : Option Text := data.map host.sha256

/-- A hexadecimal digit of any case, or a decimal digit of any script. -/
def isBase16Digit (letter : CodePoint) : Bool :=
  (97 ≤ letter.val && letter.val ≤ 102) || (65 ≤ letter.val && letter.val ≤ 70) ||
    (host.decimal letter).isSome

/-- Digits with single underscores between them. -/
def isBase16Number : Text → Bool
  | [] => false
  | [last] => host.isBase16Digit last
  | first :: second :: rest =>
      host.isBase16Digit first &&
        if second = code '_' then isBase16Number rest else isBase16Number (second :: rest)

/-- `int(string, 16)` does not raise. -/
def isBase16 (string : Text) : Bool :=
  let unsigned := match strip string with
    | first :: rest => if first = code '-' ∨ first = code '+' then rest else first :: rest
    | [] => []
  match unsigned with
  | first :: second :: rest =>
      if host.decimal first = some 0 ∧ (second = code 'x' ∨ second = code 'X') then
        host.isBase16Number (if rest.head? = some (code '_') then rest.tail else rest)
      else host.isBase16Number (first :: second :: rest)
  | short => host.isBase16Number short

/-- `_valid_sha256`, with the digest when there is one.  The letters that `int(value, 16)`
takes are ASCII. -/
def validSha256 : Json → Option (Option Text)
  | .null => some none
  | .str string =>
      if string.length = 64 ∧ host.isBase16 string ∧
          string.all (fun letter => letter.val < 65 || 90 < letter.val) then
        some (some string)
      else none
  | _ => none

end Host

/-- A digest or `None`, as JSON. -/
def digestJson : Option Text → Json
  | none => .null
  | some digest => .str digest

/-! ## Plans -/

/-- A destination of a journal: what `_RecoveryPlan` has for it in `paths`, `before` and
`expected_hashes`, and the mode of its record. -/
structure Destination where
  relative : Text
  path : Path
  before : Option Bytes
  expectedHashes : List (Option Text)
  mode : Json
  deriving DecidableEq, Repr

/-- `_RecoveryPlan`, with its destinations in the order of the records. -/
structure RecoveryPlan where
  journalPath : Path
  journal : Json
  rollback : Bool
  destinations : List Destination
  deriving DecidableEq, Repr

namespace Project

variable (project : Project)

/-- `_read_recovery_journal` -/
def readRecoveryJournal (path : Path) (contents : Option Bytes) : Except Raised Json :=
  match contents.bind (readJson project.host.floats) with
  | none => .error (transactionError
      (text "invalid pending transaction journal " ++ project.pathText path ++ text ": "))
  | some journal => do
      require journal.obj?.isSome (transactionError "invalid transaction journal schema")
      return journal

/-- `base64.b64decode(encoded, validate=True) if encoded is not None else None` -/
def rollbackBytes (relative : Text) : Json → Except Raised (Option Bytes)
  | .null => .ok none
  | .str encoded =>
      match b64decode encoded with
      | some bytes => .ok (some bytes)
      | none => .error (transactionError (text "invalid rollback bytes for " ++ relative))
  | _ => .error (transactionError (text "invalid rollback bytes for " ++ relative))

/-- One record of `_prepare_recovery`. -/
def prepareRecord (phase : Text) (forceRollback : Bool) (record : Json) (relative : Text) :
    Except Raised Destination := do
  let path ← project.confinedPath relative
  let before ← rollbackBytes relative (record.get "before_base64")
  require ((record.get "before_sha256").equal (digestJson (project.host.sha before)))
    (transactionError (text "rollback bytes do not match before hash: " ++ relative))
  match project.host.validSha256 (record.get "after_sha256") with
  | none => .error (transactionError (text "invalid after hash: " ++ relative))
  | some after =>
      let expectedHashes ←
        if phase = text "ROLLED_BACK" then do
          let _ ← item record "before_sha256"
          pure [project.host.sha before]
        else if phase = text "COMMITTED" ∧ forceRollback = false then pure [after]
        else do
          let _ ← item record "before_sha256"
          pure [project.host.sha before, after]
      return ⟨relative, path, before, expectedHashes, record.get "mode"⟩

/-- The records of `_prepare_recovery`. -/
def prepareRecords (phase : Text) (forceRollback : Bool) :
    (seen : List Text) → List Json → Except Raised (List Destination)
  | _, [] => .ok []
  | seen, record :: records =>
      match record.get "path" with
      | .str relative => do
          require (relative ∉ seen)
            (transactionError (text "duplicate transaction recovery destination: " ++ relative))
          let destination ← project.prepareRecord phase forceRollback record relative
          let destinations ← prepareRecords phase forceRollback (relative :: seen) records
          return destination :: destinations
      | _ => .error (transactionError "invalid transaction record schema")

/-- The phases of a journal. -/
def phases : List Text := ["PREPARED", "APPLYING", "COMMITTED", "ROLLED_BACK"]

/-- `_prepare_recovery` of a journal that was read. -/
def prepareRecovery (journalPath : Path) (forceRollback : Bool) (journal : Json) :
    Except Raised RecoveryPlan := do
  let schemaError := transactionError "invalid transaction journal schema"
  require ((journal.get "schema").equal (.int 1)) schemaError
  require (journal.get "records").arr?.isSome schemaError
  let mismatch := transactionError "transaction journal root mismatch"
  let root := (journal.get "root").str?.getD []
  require (root ≠ []) mismatch
  require ((← project.resolve root) = project.root) mismatch
  let unsupported := transactionError "unsupported transaction recovery phase: "
  require (← inSet (journal.get "phase") phases) unsupported
  let phase := (journal.get "phase").str?.getD []
  let destinations ← project.prepareRecords phase forceRollback []
    ((journal.get "records").arr?.getD [])
  return {
    journalPath, journal, destinations
    rollback := phase ∈ [text "PREPARED", text "APPLYING"] ||
      (phase = text "COMMITTED" && forceRollback) }

/-! ## The preflight of a batch -/

/-- The last plan that has each destination, and whether it is rolled back. -/
abbrev Owners := List (Path × Path × Bool)

/-- The destinations of one plan in `_preflight_recovery_batch`. -/
def claimDestinations (journalPath : Path) (rollback : Bool) :
    List Destination → Owners → Except Raised Owners
  | [], owners => .ok owners
  | destination :: rest, owners =>
      match owners.lookup destination.path with
      | some (prior, priorRollback) => do
          require (priorRollback = false ∧ rollback = false) (transactionError
            (text "ambiguous destination appears in multiple pending transactions: " ++
              destination.relative ++ text " (" ++ project.pathText prior ++ text " and " ++
              project.pathText journalPath ++ text ")"))
          claimDestinations journalPath rollback rest
            ((destination.path, journalPath, rollback) :: owners)
      | none => claimDestinations journalPath rollback rest
          ((destination.path, journalPath, rollback) :: owners)

/-- The first loop of `_preflight_recovery_batch`. -/
def claimPlans : List RecoveryPlan → Owners → Except Raised Owners
  | [], owners => .ok owners
  | plan :: rest, owners => do
      let owners ← project.claimDestinations plan.journalPath plan.rollback plan.destinations
        owners
      claimPlans rest owners

open FileProgram

/-- A destination in the second loop of `_preflight_recovery_batch`. -/
def checkDestination (destination : Destination) : FileProgram Unit := do
  let current ← read destination.path
  if project.host.sha current ∈ destination.expectedHashes then .pure ()
  else .raise (transactionError
    (text "ambiguous destination drift during recovery: " ++ destination.relative))

/-- `_preflight_recovery_batch` -/
def preflightRecoveryBatch (plans : List RecoveryPlan) : FileProgram Unit := do
  let _ ← FileProgram.ofExcept (project.claimPlans plans [])
  let _ ← Program.each (fun plan => Program.each project.checkDestination plan.destinations) plans
  .pure ()

/-! ## Application -/

/-- A record of `_apply_recovery`. -/
def restore (destination : Destination) : FileProgram Unit :=
  match destination.before with
  | none => project.durableUnlink destination.path true
  | some before => project.atomicWriteBytes destination.path before destination.mode

/-- The journal of a plan that was rolled back. -/
def rolledBack (journal : Json) (time : Text) : Json :=
  ((journal.set "phase" (.str "ROLLED_BACK")).set "rolled_back" (.str time)).set "applied" (.int 0)

/-- `_apply_recovery` -/
def applyRecovery (plan : RecoveryPlan) : FileProgram Json :=
  if plan.rollback = false then .pure plan.journal
  else do
    let _ ← Program.each project.restore plan.destinations.reverse
    let time ← now
    let journal := rolledBack plan.journal time
    project.atomicWriteJson plan.journalPath journal
    .pure journal

/-! ## Candidates -/

/-- A directory of the state directory and its journal. -/
structure Candidate where
  directory : Path
  preview : Json

/-- `directory / "journal.json"` -/
def Candidate.journalPath (candidate : Candidate) : Path :=
  candidate.directory ++ [text "journal.json"]

/-- A directory in the scan of `_recover_candidates`. -/
def scanDirectory (names : Option (List Text)) (removeRecovered : Bool) (directory : Path) :
    FileProgram (List Candidate) := do
  if ← isDir directory then
    let journalPath := directory ++ [text "journal.json"]
    let files ← look
    if files.isFile journalPath = false then
      .raise (transactionError
        (text "transaction directory has no real journal: " ++ project.pathText directory))
    else
      let files ← look
      let preview ← FileProgram.ofExcept
        (project.readRecoveryJournal journalPath (files.contents? journalPath))
      let selected ← FileProgram.ofExcept (match names with
        | none => .ok true
        | some names => inSet (preview.get "name") names)
      if selected then
        if removeRecovered then
          let files ← look
          if (files.names directory).any (· ≠ text "journal.json") then
            .raise (transactionError
              (text "recovered transaction directory is not empty: " ++
                project.pathText directory))
          else .pure [⟨directory, preview⟩]
        else .pure [⟨directory, preview⟩]
      else .pure []
  else .pure []

/-- `sorted(state_dir.iterdir(), key=lambda item: item.name)` -/
def listDirectory (directory : Path) : FileProgram (List Path) := do
  let files ← look
  if files.isDir directory then
    .pure (((files.names directory).insertionSort (· ≤ ·)).map fun name => directory ++ [name])
  else .raise (osError (if files.isFile directory then .notADirectory else .fileNotFound))

/-- The plan of a candidate. -/
def planOf (candidate : Candidate) : Except Raised RecoveryPlan := do
  let settled ← inSet (candidate.preview.get "phase") [text "COMMITTED", text "ROLLED_BACK"]
  project.prepareRecovery candidate.journalPath (!settled) candidate.preview

/-- `_recover_candidates` up to the first plan that is applied. -/
def decideRecovery (stateDir : Path) (names : Option (List Text)) (removeRecovered : Bool) :
    FileProgram (List Candidate × List RecoveryPlan) := do
  let directories ← listDirectory stateDir
  let found ← Program.each (project.scanDirectory names removeRecovered) directories
  let candidates := found.flatten
  let plans ← FileProgram.ofExcept (candidates.mapM project.planOf)
  project.preflightRecoveryBatch plans
  .pure (candidates, plans)

/-- The recovered journals of all plans. -/
def applyPlans (plans : List RecoveryPlan) : FileProgram (List Json) :=
  Program.each project.applyRecovery plans

/-- The journal and the directory of a recovered candidate are removed. -/
def removeCandidate (candidate : Candidate) : FileProgram Unit := do
  project.durableUnlink candidate.journalPath false
  .act (.rmdir candidate.directory) fun answer =>
    match answer with
    | .ok () => .pure ()
    | .error _ => .raise (transactionError (text "recovered transaction directory is not empty: " ++
        project.pathText candidate.directory))

/-- `_recover_candidates` -/
def recoverCandidates (stateDir : Path) (names : Option (List Text)) (removeRecovered : Bool) :
    FileProgram (List Json) := do
  let (candidates, plans) ← project.decideRecovery stateDir names removeRecovered
  let recovered ← project.applyPlans plans
  if removeRecovered then
    let _ ← Program.each project.removeCandidate candidates
    .pure recovered
  else .pure recovered

end Project

end CarbonLab.Aegis
