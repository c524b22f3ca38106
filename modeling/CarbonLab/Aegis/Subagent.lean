import CarbonLab.Aegis.TaskSave
import CarbonLab.Lib.Interleaving

/-!
# Subagents

`cmd_subagent` of `cli.py` and `LeaseLock` of `locks.py`.  At most one child works at a
time: it has a lease, a file that all processes share, and its task names it as its active
child.  The commands read both, take the control lock and then change both, one after the
other; the other commands of the tool change tasks meanwhile.
-/

namespace CarbonLab.Aegis

open StateStore

/-! ## What the commands share -/

/-- The files that the commands work on, and the ticks that were taken. -/
structure Office (ι : Type) where
  /-- `subagent-lease.json` -/
  lease : Option Bytes
  /-- The process that holds `subagent-control.lock`. -/
  control : Option ι
  tasks : Text → Option TaskDisk
  /-- The task that the pointer names. -/
  current : Option Text
  ticks : ℕ

namespace Subagent

/-- The requests of a command. -/
inductive Call
  /-- `s.load(id)`, of the current task if no identifier is given. -/
  | load (task : Option Text)
  /-- `load_evidence(task_dir(root, id))` -/
  | loadEvidence (id : Text)
  /-- `control.acquire()` -/
  | acquire
  /-- `control.release()` -/
  | release
  /-- `read_text` of the lease. -/
  | read
  /-- `os.open` of the lease with `O_EXCL`. -/
  | create
  /-- The contents of the lease that was just created. -/
  | write (contents : Bytes)
  | unlink
  | uuid
  | now
  /-- `s.mutate(edit, id, allow_active_child=...)` -/
  | mutate (id : Text) (edit : Edit) (allowActiveChild : Bool)
  /-- `s.create(title, mode, complexity, risk)`, with the identifier that it makes up. -/
  | createTask (id title mode complexity risk : Text)

/-- What a request returns. -/
def Call.Reply : Call → Type
  | .load _ | .mutate _ _ _ | .createTask _ _ _ _ _ => Except Raised Json
  | .loadEvidence _ => Except Raised (List Json)
  | .acquire | .release => Except Raised Unit
  | .read => Option Bytes
  | .create | .write _ | .unlink => Except OsError Unit
  | .uuid | .now => Text

/-- `"L-" + uuid.uuid4().hex` -/
def leaseName (host : Host) (tick : ℕ) : Text := text "L-" ++ host.entropy.uuid tick

section

variable {ι : Type} [DecidableEq ι] (host : Host)

/-- Serve a request of a process, in a workspace. -/
def serve (workspace : Json) (process : ι) :
    (call : Call) → Office ι → call.Reply × Office ι
  | .load task, office =>
      let answer : Except Raised Json :=
        match task.or office.current with
        | none => .error (runtimeError "no current task")
        | some id =>
            match office.tasks id with
            | none => .error (osError .fileNotFound)
            | some disk => StateStore.load host workspace id disk
      (answer, office)
  | .loadEvidence id, office =>
      let answer : Except Raised (List Json) :=
        match office.tasks id with
        | none => .ok []
        | some disk => Evidence.loadEvidence host id disk.files true
      (answer, office)
  | .acquire, office =>
      match office.control with
      | none => (.ok (), { office with control := some process })
      | some _ => (.error ⟨.lockError, "lock timeout"⟩, office)
  | .release, office =>
      if office.control = some process then (.ok (), { office with control := none })
      else (.error ⟨.lockError, "lock is not held"⟩, office)
  | .read, office => (office.lease, office)
  | .create, office =>
      match office.lease with
      | none => (.ok (), { office with lease := some [] })
      | some _ => (.error .fileExists, office)
  | .write contents, office =>
      match office.lease with
      | none => (.error .fileNotFound, office)
      | some _ => (.ok (), { office with lease := some contents })
  | .unlink, office =>
      match office.lease with
      | none => (.error .fileNotFound, office)
      | some _ => (.ok (), { office with lease := none })
  | .uuid, office => (host.entropy.uuid office.ticks, { office with ticks := office.ticks + 1 })
  | .now, office => (host.entropy.now office.ticks, { office with ticks := office.ticks + 1 })
  | .mutate id edit allowActiveChild, office =>
      match office.tasks id with
      | none => (.error (osError .fileNotFound), office)
      | some disk =>
          match perform host workspace id (host.entropy.now office.ticks) disk
            (.mutate edit none allowActiveChild) with
          | .error raised => (.error raised, office)
          | .ok (returned, after) => (.ok returned, { office with
              tasks := Function.update office.tasks id (some after)
              ticks := office.ticks + 1 })
  | .createTask id title mode complexity risk, office =>
      match office.tasks id with
      | some _ => (.error (runtimeError "task id collision"), office)
      | none =>
          match StateStore.create host id title mode complexity risk
            (host.entropy.now office.ticks) with
          | .error raised => (.error raised, office)
          | .ok (task, disk) => (.ok task, { office with
              tasks := Function.update office.tasks id (some disk)
              current := some id
              ticks := office.ticks + 1 })

/-- The answers of a request that came at a bad time: a lock was held for too long, or a
file was replaced while the store read the others. -/
def Call.Fails : (call : Call) → call.Reply → Prop
  | .load _, answer => ∃ raised : Raised, answer = Except.error raised
  | .loadEvidence _, answer => ∃ raised : Raised, answer = Except.error raised
  | .acquire, answer => ∃ raised : Raised, answer = Except.error raised
  | .mutate _ _ _, answer => ∃ raised : Raised, answer = Except.error raised
  | .createTask _ _ _ _ _, answer => ∃ raised : Raised, answer = Except.error raised
  | _, _ => False

/-- A request of one of many processes. -/
def Serves (process : ι) (call : Call) (office : Office ι) (answer : call.Reply)
    (after : Office ι) : Prop :=
  (∃ workspace, serve host workspace process call office = (answer, after)) ∨
    call.Fails answer ∧ after = office

end

/-! ## Requests as commands -/

/-- A part of a command. -/
abbrev Command (α : Type) : Type := Program Call Call.Reply Raised α

/-- What was computed, or raised. -/
def lift {α : Type} : Except Raised α → Command α
  | .ok value => .pure value
  | .error raised => .raise raised

def loadTask (task : Option Text) : Command Json :=
  .act (.load task) fun answer : Except Raised Json => lift answer

def loadEvidence (id : Text) : Command (List Json) :=
  .act (.loadEvidence id) fun answer : Except Raised (List Json) => lift answer

def acquireControl : Command Unit := .act .acquire fun answer : Except Raised Unit => lift answer

def releaseControl : Command Unit := .act .release fun answer : Except Raised Unit => lift answer

def uuid : Command Text := .act .uuid fun name : Text => .pure name

def now : Command Text := .act .now fun time : Text => .pure time

def unlink : Command Unit :=
  .act .unlink fun answer : Except OsError Unit => lift (answer.mapError osError)

def write (contents : Bytes) : Command Unit :=
  .act (.write contents) fun answer : Except OsError Unit => lift (answer.mapError osError)

def mutate (id : Text) (edit : Edit) (allowActiveChild : Bool) : Command Json :=
  .act (.mutate id edit allowActiveChild) fun answer : Except Raised Json => lift answer

/-! ## `LeaseLock` -/

/-- `raise LockError(message)` -/
def lockError (message : Text) : Raised := ⟨.lockError, message⟩

/-- The purpose of the lease. -/
def purpose : Text := text "single-active-subagent"

/-- What `inspect` finds, without the age of the file. -/
inductive Inspection
  | missing
  | corrupt
  | lease (data : Json)
  deriving DecidableEq

namespace Inspection

/-- `info.get("exists")` -/
def isThere : Inspection → Bool
  | .missing => false
  | _ => true

/-- `info.get(key)`, for a key of the lease. -/
def get (info : Inspection) (key : Text) : Json :=
  match info with
  | .lease data => data.get key
  | _ => .null

end Inspection

/-- The strings that a lease must have. -/
def leaseStrings : List Text := ["lease_id", "owner_nonce", "task_id", "role", "host"]

section

variable (host : Host)

/-- `inspect` of the contents of the file. -/
def inspectContents : Option Bytes → Inspection
  | none => .missing
  | some bytes =>
      match readJson host.floats bytes with
      | none => .corrupt
      | some data =>
          if data.obj?.isSome ∧ leaseStrings.all fun key => (data.get key).str?.any (· ≠ [])
          then .lease data else .corrupt

/-- `inspect` -/
def inspect : Command Inspection :=
  .act .read fun contents : Option Bytes => .pure (inspectContents host contents)

/-- The file of a lease. -/
def leaseText (payload : Json) : Bytes := jsonLine host.floats .plain payload

/-- The process that runs a command. -/
structure Owner where
  pid : ℤ
  /-- `_process_identity(os.getpid())` -/
  identity : Option Text
  /-- `socket.gethostname()` -/
  hostname : Text
  hostname_ne : hostname ≠ []

/-- The contents of a new lease. -/
def leasePayload (owner : Owner) (lease nonce id role created : Text) : Json :=
  .obj (Fields.ofPairs [("schema", .int 2), ("lease_id", .str lease), ("owner_nonce", .str nonce),
    ("task_id", .str id), ("role", .str role), ("parent_id", .str id),
    ("opened_by_pid", .int owner.pid),
    ("process_identity", (owner.identity.map Json.str).getD .null),
    ("host", .str owner.hostname), ("created", .str created), ("purpose", .str purpose)])

/-- `LeaseLock.acquire` -/
def acquireLease (owner : Owner) (id role : Text) : Command Json := do
  let lease ← uuid
  let nonce ← uuid
  let created ← now
  let payload := leasePayload owner (text "L-" ++ lease) nonce id role created
  .act .create fun answer : Except OsError Unit =>
    match answer with
    | .error _ => .raise (lockError "subagent lease already exists: ")
    | .ok () => do
        write (leaseText host payload)
        return payload

/-- What `release` checks; an owner nonce that is not known is not checked. -/
def checkLease (info : Inspection) (lease nonce id role : Json) : Except Raised Unit :=
  [(text "lease_id", lease), (text "owner_nonce", nonce), (text "task_id", id),
    (text "role", role)].forM fun check =>
      require (check.2 = .null ∨ (info.get check.1).equal check.2)
        (lockError (text "subagent lease " ++ check.1 ++ text " mismatch"))

/-- `LeaseLock.release` -/
def releaseLease (lease nonce id role : Json) : Command Unit := do
  let info ← inspect host
  lift (require info.isThere (lockError "subagent lease does not exist"))
  lift (require (info ≠ .corrupt) (lockError "subagent lease is corrupt"))
  lift (checkLease info lease nonce id role)
  unlink

/-- `LeaseLock.force_clear` -/
def forceClear (reason id : Text) : Command Inspection := do
  lift (require (strip reason ≠ []) (lockError "force-clear requires a non-empty reason"))
  let info ← inspect host
  if info.isThere then
    lift (require (info ≠ .corrupt)
      (lockError "corrupt lease requires forensic recovery; automatic force-clear refused"))
    lift (require ((info.get "task_id").equal (.str id))
      (lockError "refusing to clear another task's lease"))
    unlink
  return info

/-- The keys that a lease needs to be restored. -/
def restorable : List Text :=
  ["schema", "lease_id", "owner_nonce", "task_id", "role", "host", "purpose"]

/-- `LeaseLock.restore` -/
def restore (info : Inspection) : Command Unit :=
  match info with
  | .lease payload => do
      lift (require ((payload.get "schema").equal (.int 2) ∧
          restorable.all fun key => (payload.get? key).isSome)
        (lockError "refusing to restore an invalid lease payload"))
      lift (require ((payload.get "purpose").equal (.str purpose))
        (lockError "refusing to restore lease for a different purpose"))
      .act .create fun answer : Except OsError Unit =>
        match answer with
        | .error _ => .raise (lockError "cannot restore lease because another lease now exists")
        | .ok () => write (leaseText host ((payload.erase "exists").erase "age_seconds"))
  | _ => .raise (lockError "refusing to restore an invalid lease payload")

end

/-! ## The commands -/

/-- The states in which no child may be opened. -/
def closedStates : List Text := ["FINAL_AUDIT", "FINALIZE", "FAILED", "CANCELLED", "ABANDONED"]

/-- The roles that are always known. -/
def builtinRoles : List Text :=
  ["reviewer", "worker", "researcher", "explorer", "architect", "implementer", "verifier",
    "test-engineer", "law-analyst", "adversarial-reviewer", "security-reviewer",
    "performance-reviewer", "migration-analyst", "diagnostician"]

/-- `aegis_[a-z0-9_]{1,57}`, the names that `load_role_specs` lets through. -/
def isRoleName (name : Text) : Bool :=
  startsWith "aegis_" name && decide (7 ≤ name.length ∧ name.length ≤ 63) &&
    (name.drop 6).all fun letter => isLowerAlnum letter || letter = code '_'

/-- The files of the framework that a command reads. -/
structure Framework where
  /-- The names in the role registry, if there is one. -/
  roles : List Text
  roles_named : ∀ role ∈ roles, isRoleName role = true

/-- `args.role in roles` -/
def Framework.knows (framework : Framework) (role : Text) : Bool :=
  role ∈ builtinRoles || role ∈ framework.roles

/-- What a command prints. -/
inductive Outcome
  | opened (task lease : Json)
  | closed (task : Json)
  | recovered (task : Json)
  | changed (task : Json)
  | inspected (info : Inspection)

/-- The keys of a record that a child is told. -/
def briefKeys : List Text := ["id", "kind", "summary", "record_sha256"]

section

variable (host : Host)

/-- `known[id]`, for the records of the ledger by their identifiers. -/
def known (records : List Json) (id : Text) : Option Json :=
  records.reverse.find? fun record => (record.get "id").equal (.str id)

/-- The names that no record of the ledger has. -/
def unknown (records : List Json) (names : List Text) : List Text :=
  names.filter fun name => (known records name).isNone

/-- What a child is told of a record. -/
def contextRecord (task record : Json) : Except Raised Json := do
  require ((record.get "task_id").equal (task.get "id") ∧
      (record.get "change_epoch").equal (task.get "change_epoch"))
    (runtimeError "child context evidence is not bound to current task epoch")
  require (← inSet (record.get "provenance")
      ["framework-command", "verified-observation", "external-source"])
    (runtimeError "child context accepts only directly verified parent facts")
  return .obj (Fields.ofPairs (briefKeys.map fun key => (key, record.get key)))

/-- What a child is told. -/
def contextBrief (task : Json) (records : List Json) (requested : List Text) :
    Except Raised Json := do
  let missing := unknown records requested
  require (missing = []) (runtimeError (text "unknown child-context evidence: " ++ commas missing))
  let told ← (requested.filterMap (known records)).mapM (contextRecord task)
  let brief := Json.obj (Fields.ofPairs [("schema", .int 1), ("task_id", task.get "id"),
    ("change_epoch", task.get "change_epoch"), ("evidence", .arr told)])
  require ((host.canonical brief).length ≤ 16384)
    (runtimeError "child context brief exceeds 16384-byte bound")
  return brief

/-- The active child that `open` records. -/
def newChild (role opened : Text) (lease brief : Json) : Json :=
  .obj (Fields.ofPairs [("role", .str role), ("opened", .str opened),
    ("lease_id", lease.get "lease_id"), ("owner_nonce", lease.get "owner_nonce"),
    ("context_brief", brief), ("context_brief_sha256", .str (host.digest brief))])

/-- The edit of `open`. -/
def openEdit (role opened : Text) (lease brief : Json) : Edit := fun task files => do
  require (¬ (← inSet (task.get "state") closedStates))
    (runtimeError "task entered final audit or terminal state before child open")
  require (¬ (task.get "active_child").truthy) (runtimeError "task already records active child")
  let edited := task.set "active_child" (newChild host role opened lease brief)
  return (edited.set "final_audit_complete" (.bool false), files.ledger, files.anchor)

/-- What is checked before a child is opened. -/
def mayOpen (framework : Framework) (task : Json) (role : Text) : Except Raised Unit := do
  require (¬ (← inSet (task.get "state") closedStates))
    (runtimeError "cannot open a subagent during/after final audit or for a terminal task")
  require (framework.knows role) (runtimeError "unknown subagent role")

/-- The identifier of a task. -/
def idOf (task : Json) : Text := (task.get "id").str?.getD []

/-- `subagent open`, under the control lock. -/
def openLocked (owner : Owner) (id role : Text) (brief : Json) : Command Outcome := do
  let lease ← acquireLease host owner id role
  let attempt : Command Outcome := do
    let opened ← now
    let updated ← mutate id (openEdit host role opened lease brief) false
    return .opened updated lease
  attempt.tryCatch fun raised => do
    releaseLease host (lease.get "lease_id") (lease.get "owner_nonce") (.str id) (.str role)
    .raise raised

/-- `subagent open` -/
def openChild (framework : Framework) (owner : Owner) (task : Option Text) (role : Text)
    (evidence : List Text) : Command Outcome := do
  let loaded ← loadTask task
  lift (mayOpen framework loaded role)
  let records ← loadEvidence (idOf loaded)
  let brief ← lift (contextBrief host loaded records evidence.eraseDups)
  acquireControl
  (openLocked host owner (idOf loaded) role brief).andFinally releaseControl

/-- A task whose active child left: a handoff is added to its history. -/
def handOff (task handoff : Json) : Except Raised Json :=
  match task.getD "child_history" (.arr []) with
  | .arr items =>
      .ok ((task.set "child_history" (.arr (items ++ [handoff]))).set "active_child" .null)
  | _ => .error ⟨.attributeError, "object has no attribute 'append'"⟩

/-- The edit of `close`. -/
def closeEdit (child : Json) (closed outcome summary : Text) (evidence : List Text) : Edit :=
  fun task files => do
    let handoff := Json.obj (Fields.ofPairs [("role", ← item child "role"),
      ("lease_id", ← item child "lease_id"), ("opened", ← item child "opened"),
      ("closed", .str closed), ("outcome", .str outcome), ("summary", .str (strip summary)),
      ("evidence", .arr (evidence.map .str)),
      ("context_brief_sha256", child.get "context_brief_sha256")])
    let edited ← handOff task handoff
    return (edited.set "final_audit_complete" (.bool false), files.ledger, files.anchor)

/-- The lease is that of the active child of the task. -/
def mayClose (task child : Json) (info : Inspection) (lease : Option Text) : Except Raised Unit := do
  require (info.isThere ∧ (info.get "lease_id").equal (child.get "lease_id") ∧
      (info.get "task_id").equal (task.get "id"))
    (runtimeError "task/global subagent lease mismatch; recover explicitly")
  require (lease.all fun given => (Json.str given).equal (child.get "lease_id"))
    (runtimeError "provided lease id mismatch")

/-- The evidence of a handoff is in the ledger. -/
def checkEvidence (id : Text) (evidence : List Text) : Command Unit :=
  if evidence = [] then .pure ()
  else do
    let records ← loadEvidence id
    let missing := unknown records evidence
    lift (require (missing = [])
      (runtimeError (text "unknown child-handoff evidence: " ++ commas missing)))

/-- `subagent close`, under the control lock. -/
def closeLocked (child : Json) (info : Inspection) (id outcome summary : Text)
    (evidence : List Text) : Command Outcome := do
  let lease ← lift (item child "lease_id")
  let role ← lift (item child "role")
  releaseLease host lease (child.get "owner_nonce") (.str id) role
  let attempt : Command Outcome := do
    let closed ← now
    let updated ← mutate id (closeEdit child closed outcome summary evidence) true
    return .closed updated
  attempt.tryCatch fun raised => do
    restore host info
    .raise raised

/-- `subagent close` -/
def closeChild (task lease : Option Text) (outcome summary : Text) (evidence : List Text) :
    Command Outcome := do
  let loaded ← loadTask task
  let child := loaded.get "active_child"
  lift (require child.truthy (runtimeError "task has no active child"))
  let info ← inspect host
  lift (mayClose loaded child info lease)
  checkEvidence (idOf loaded) evidence.eraseDups
  acquireControl
  (closeLocked host child info (idOf loaded) outcome summary evidence.eraseDups).andFinally
    releaseControl

/-- What `_append_verified_observation` does with the ledger of a task: the record, and the
two files of the ledger. -/
abbrev Observe := Json → TaskFiles → Except Raised (Json × Option Bytes × Option Bytes)

/-- The edit of `recover`. -/
def recoverEdit (observe : Observe) (child : Json) (closed reason : Text) : Edit :=
  fun task files => do
    let record ← observe task files
    let handoff := Json.obj (Fields.ofPairs [("role", ← item child "role"),
      ("lease_id", ← item child "lease_id"), ("opened", ← item child "opened"),
      ("closed", .str closed), ("outcome", .str "recovered"), ("summary", .str (strip reason)),
      ("evidence", .arr [← item record.1 "id"])])
    let edited ← handOff task handoff
    return (edited.set "evidence_head" (← item record.1 "record_sha256"), record.2)

/-- `subagent recover`, under the control lock. -/
def recoverLocked (observe : Observe) (child : Json) (id reason : Text) : Command Outcome := do
  let cleared ← forceClear host reason id
  let attempt : Command Outcome := do
    let closed ← now
    let updated ← mutate id (recoverEdit observe child closed reason) true
    return .recovered updated
  attempt.tryCatch fun raised => do
    restore host cleared
    .raise raised

/-- The task that `recover` works on. -/
def recoveryTarget (task : Option Text) (info : Inspection) : Except Raised Text :=
  match task.or (info.get "task_id").str? with
  | none => .error (runtimeError "no lease task exists to recover")
  | some target => do
      require (info.isThere → (info.get "task_id").equal (.str target))
        (runtimeError "recovery target does not match global lease task")
      return target

/-- `subagent recover` -/
def recoverChild (observe : Observe) (force : Bool) (task : Option Text) (reason : Text) :
    Command Outcome := do
  lift (require force
    (runtimeError "subagent recovery is destructive workflow repair; pass --force"))
  let info ← inspect host
  let target ← lift (recoveryTarget task info)
  let loaded ← loadTask (some target)
  let child := loaded.get "active_child"
  lift (require (child.truthy ∧ (child.get "lease_id").equal (info.get "lease_id"))
    (runtimeError "task/global subagent lease mismatch"))
  acquireControl
  (recoverLocked host observe child target reason).andFinally releaseControl

/-- `subagent status` -/
def status : Command Outcome := do
  let info ← inspect host
  return .inspected info

end

/-! ## The other commands -/

/-- The fields of a task that only the subagent commands change. -/
def childFields : List Text := ["active_child", "child_history"]

/-- An edit that leaves these fields alone. -/
def SparesChild (edit : Edit) : Prop :=
  ∀ task files edited, edit task files = .ok edited →
    ∀ key ∈ childFields, edited.1.normalize.get? key = task.normalize.get? key

/-- A command that edits a task: a transition, a gate, a risk, a decision, evidence. -/
def editTask (id : Text) (edit : Edit) : Command Outcome := do
  let updated ← mutate id edit false
  return .changed updated

/-- `task new` -/
def newTask (id title mode complexity risk : Text) : Command Outcome :=
  .act (.createTask id title mode complexity risk) fun answer : Except Raised Json =>
    lift (answer.map .changed)

/-- `task status` -/
def taskStatus (task : Option Text) : Command Outcome := do
  let loaded ← loadTask task
  return .changed loaded

/-- The commands that a process may run. -/
inductive Issues (host : Host) (framework : Framework) (owner : Owner) : Command Outcome → Prop
  | open_ (task : Option Text) (role : Text) (evidence : List Text) :
      Issues host framework owner (openChild host framework owner task role evidence)
  | close (task lease : Option Text) (outcome summary : Text) (evidence : List Text) :
      Issues host framework owner (closeChild host task lease outcome summary evidence)
  | recover (observe : Observe) (force : Bool) (task : Option Text) (reason : Text) :
      Issues host framework owner (recoverChild host observe force task reason)
  | status : Issues host framework owner (status host)
  | edit (id : Text) (edit : Edit) : SparesChild edit →
      Issues host framework owner (editTask id edit)
  | new (id title mode complexity risk : Text) :
      Issues host framework owner (newTask id title mode complexity risk)
  | taskStatus (task : Option Text) : Issues host framework owner (taskStatus task)

end Subagent

end CarbonLab.Aegis
