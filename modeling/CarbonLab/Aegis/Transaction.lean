import CarbonLab.Aegis.RecoveryExact

/-!
# Transactions

`FileTransaction` of `transaction.py`: the preflight of the mutations, the journal that is
written before and after each of them, and the rollback of a commit that raised.  The lock
of the transaction's name is held.
-/

namespace CarbonLab.Aegis

open FileProgram

/-! ## Base64 -/

/-- A base64 digit. -/
def base64Digit (value : ℕ) : CodePoint :=
  if value < 26 then Fin.ofNat _ (value + 65)
  else if value < 52 then Fin.ofNat _ (value + 71)
  else if value < 62 then Fin.ofNat _ (value - 4)
  else if value = 62 then code '+'
  else code '/'

/-- `base64.b64encode(data).decode("ascii")` -/
def b64encode : Bytes → Text
  | [] => []
  | [first] =>
      [base64Digit (first.toNat / 4), base64Digit (first.toNat % 4 * 16), code '=', code '=']
  | [first, second] =>
      [base64Digit (first.toNat / 4), base64Digit (first.toNat % 4 * 16 + second.toNat / 16),
        base64Digit (second.toNat % 16 * 4), code '=']
  | first :: second :: third :: rest =>
      base64Digit (first.toNat / 4) :: base64Digit (first.toNat % 4 * 16 + second.toNat / 16) ::
        base64Digit (second.toNat % 16 * 4 + third.toNat / 64) ::
        base64Digit (third.toNat % 64) :: b64encode rest

theorem base64Value_digit : ∀ value < 64, base64Value (base64Digit value) = some value := by
  decide

theorem base64Digit_ne_pad : ∀ value < 64, base64Digit value ≠ code '=' := by
  decide

theorem ofNat_eq_of_mod {byte : UInt8} {number : ℕ} (same : number % 256 = byte.toNat) :
    UInt8.ofNat number = byte := by
  apply UInt8.toNat_inj.mp
  rw [UInt8.toNat_ofNat']
  exact same

/-- What was encoded is decoded. -/
theorem b64decode_b64encode (bytes : Bytes) : b64decode (b64encode bytes) = some bytes := by
  have bound (byte : UInt8) : byte.toNat < 256 := byte.toNat_lt
  induction bytes using b64encode.induct with
  | case1 => rfl
  | case2 first =>
      have := bound first
      have here : UInt8.ofNat (first.toNat / 4 * 4 + first.toNat % 4 * 16 / 16) = first :=
        ofNat_eq_of_mod (by omega)
      rw [b64encode, b64decode, base64Value_digit _ (by omega), base64Value_digit _ (by omega)]
      simp only [Option.bind_eq_bind, Option.bind_some, and_self, if_true, here]
      rfl
  | case3 first second =>
      have := bound first
      have := bound second
      have here : UInt8.ofNat (first.toNat / 4 * 4 +
          (first.toNat % 4 * 16 + second.toNat / 16) / 16) = first := ofNat_eq_of_mod (by omega)
      have next : UInt8.ofNat ((first.toNat % 4 * 16 + second.toNat / 16) * 16 +
          second.toNat % 16 * 4 / 4) = second := ofNat_eq_of_mod (by omega)
      rw [b64encode, b64decode, base64Value_digit _ (by omega), base64Value_digit _ (by omega),
        base64Value_digit _ (by omega)]
      simp only [Option.bind_eq_bind, Option.bind_some, and_self, if_true, here, next,
        base64Digit_ne_pad _ (show second.toNat % 16 * 4 < 64 by omega), false_and, if_false]
      rfl
  | case4 first second third rest ih =>
      have := bound first
      have := bound second
      have := bound third
      have here : UInt8.ofNat (first.toNat / 4 * 4 +
          (first.toNat % 4 * 16 + second.toNat / 16) / 16) = first := ofNat_eq_of_mod (by omega)
      have next : UInt8.ofNat ((first.toNat % 4 * 16 + second.toNat / 16) * 16 +
          (second.toNat % 16 * 4 + third.toNat / 64) / 4) = second := ofNat_eq_of_mod (by omega)
      have last : UInt8.ofNat ((second.toNat % 16 * 4 + third.toNat / 64) * 64 +
          third.toNat % 64) = third := ofNat_eq_of_mod (by omega)
      rw [b64encode, b64decode, base64Value_digit _ (by omega), base64Value_digit _ (by omega),
        base64Value_digit _ (by omega), base64Value_digit _ (by omega), ih]
      simp only [Option.bind_eq_bind, Option.bind_some, here, next, last,
        base64Digit_ne_pad _ (show second.toNat % 16 * 4 + third.toNat / 64 < 64 by omega),
        base64Digit_ne_pad _ (show third.toNat % 64 < 64 by omega), false_and, if_false]
      rfl

/-! ## Mutations -/

/-- `Mutation`, with the text of its path. -/
structure Mutation where
  path : Text
  data : Option Bytes
  expectedSha256 : Option Text
  expectedExists : Option Bool
  mode : Option ℤ

/-- A destination that passed the preflight: what its record says of it. -/
structure PreparedFile where
  path : Path
  before : Option Bytes
  data : Option Bytes
  mode : Json
  deriving DecidableEq, Repr

/-- What the caller does between two steps of a commit: nothing, or it raises. -/
abbrev FaultHook := Text → Json → Except Raised Unit

/-- `FileTransaction`, with its resolved state directory. -/
structure FileTransaction where
  mutations : List Mutation
  stateDir : Path
  /-- One name of a path. -/
  name : Text
  fault : FaultHook

namespace Project

variable (project : Project)

/-- `assert_mutation_allowed` of a path that may lie anywhere, where no link stands. -/
def assertAllowed (operation value : Text) : Except Raised Unit := do
  let parts := pathParts value
  let absolute := value.head? = some (code '/')
  require (absolute ∨ text ".." ∉ parts) (runtimeError
    (text "AEGIS-I001: " ++ operation ++ text " path uses parent traversal: " ++ value))
  require (absolute → project.root <+: parts) (runtimeError
    (text "AEGIS-I010: " ++ operation ++ text " target escapes project root: " ++ value))
  let relative := if absolute then parts.drop project.root.length else parts
  require (relative.head? ≠ some (text ".agents")) (runtimeError
    (text "AEGIS-I001: deployed .agents governance is immutable: " ++ value))
  require (relative.getLast? ≠ some (text "AGENTS.md")) (runtimeError
    (text "AEGIS-I001: governing instruction file is immutable: " ++ value))
  require (∀ name ∈ relative, encodable name = true) embeddedNull
  let parent := relative.dropLast.foldl
    (fun path part => if part = text ".." then path.dropLast else path ++ [part]) project.root
  let resolved := parent ++ relative.getLast?.toList
  require (project.root <+: resolved) (runtimeError
    (text "AEGIS-I001: resolved mutation path escapes project root: " ++ value))
  require ((resolved.drop project.root.length).head? ≠ some (text ".agents")) (runtimeError
    (text "AEGIS-I001: resolved target enters deployed governance: " ++ value))

/-- `assert_mutation_allowed` and `confined_path`; what the first one denies is a
`TransactionError`. -/
def transactionPath (operation value : Text) : Except Raised Path :=
  match project.assertAllowed operation value with
  | .error ⟨.runtimeError, message⟩ => .error (transactionError message)
  | .error raised => .error raised
  | .ok () => project.confinedPath value

/-- `FileTransaction(root, mutations, state_dir=..., name=..., fault=...)` -/
def fileTransaction (mutations : List Mutation) (stateDir name : Text) (fault : FaultHook) :
    Except Raised FileTransaction := do
  let stateDir ← project.transactionPath "transaction journal" stateDir
  require (mutations ≠ []) (valueError "transaction requires at least one mutation")
  return { mutations, stateDir, name, fault }

/-! ## The preflight -/

/-- The record of a destination in a journal. -/
def recordOf (index : ℕ) (prepared : PreparedFile) : Json := .obj (Fields.ofPairs
  [("index", .int index), ("path", .str (joinParts prepared.path)),
    ("before_sha256", digestJson (project.host.sha prepared.before)),
    ("after_sha256", digestJson (project.host.sha prepared.data)),
    ("before_base64", match prepared.before with
      | none => .null
      | some before => .str (b64encode before)),
    ("mode", prepared.mode),
    ("operation", .str (if prepared.data = none then text "delete" else text "replace"))])

/-- The permission bits of files, which the file system leaves out. -/
abbrev Modes := FileSystem → Path → Fin 0o10000

/-- A mutation in the loop of `_preflight`. -/
def prepare (modes : Modes) (seen : List Text) (mutation : Mutation) :
    FileProgram PreparedFile := do
  let path ← FileProgram.ofExcept
    (project.transactionPath "transaction destination" mutation.path)
  let relative := joinParts path
  if relative ∈ seen then
    .raise (transactionError (text "duplicate transaction destination: " ++ relative))
  else
    let before ← read path
    if mutation.expectedExists.any (· ≠ before.isSome) then
      .raise (transactionError
        (text "destination existence changed before transaction: " ++ relative))
    else if mutation.expectedSha256.any (some · ≠ project.host.sha before) then
      .raise (transactionError (text "destination changed before transaction: " ++ relative))
    else
      let files ← look
      let mode := if path.all encodable && files.exists? path then Json.int (modes files path).val
        else mutation.mode.elim .null .int
      .pure ⟨path, before, mutation.data, mode⟩

/-- The loop of `_preflight`. -/
def prepareAll (modes : Modes) :
    (seen : List Text) → List Mutation → FileProgram (List PreparedFile)
  | _, [] => .pure []
  | seen, mutation :: mutations => do
      let prepared ← project.prepare modes seen mutation
      let others ← prepareAll modes (joinParts prepared.path :: seen) mutations
      .pure (prepared :: others)

/-- The records of some destinations. -/
def recordsOf (prepared : List PreparedFile) : Json :=
  .arr (prepared.mapIdx project.recordOf)

/-- The journal of a transaction. -/
def journalOf (txid name created : Text) (prepared : List PreparedFile) : Json :=
  .obj (Fields.ofPairs
    [("schema", .int 1), ("id", .str txid), ("name", .str name),
      ("root", .str (project.pathText [])), ("created", .str created),
      ("phase", .str "PREPARED"), ("applied", .int 0), ("records", project.recordsOf prepared)])

/-- What `_preflight` found: the identifier of the transaction, its journal and its
destinations. -/
structure Preflight where
  txid : Text
  journal : Json
  prepared : List PreparedFile

/-- `_preflight` -/
def preflight (modes : Modes) (transaction : FileTransaction) : FileProgram Preflight := do
  let uuid : Text ← .act .uuid .pure
  let txid := transaction.name ++ text "-" ++ uuid
  let prepared ← project.prepareAll modes [] transaction.mutations
  let created ← now
  .pure ⟨txid, project.journalOf txid transaction.name created prepared, prepared⟩

/-! ## Commit -/

/-- A destination is deleted or replaced. -/
def mutate (prepared : PreparedFile) : FileProgram Unit :=
  match prepared.data with
  | none => project.durableUnlink prepared.path true
  | some data => project.atomicWriteBytes prepared.path data prepared.mode

/-- `_fault` -/
def faultAt (fault : FaultHook) (stage : Text) (journal : Json) : FileProgram Unit :=
  FileProgram.ofExcept (fault stage journal)

/-- The loop of `commit` from an index on. -/
def applyRecords (fault : FaultHook) (journalPath : Path) :
    (index : ℕ) → List PreparedFile → Json → FileProgram Json
  | _, [], journal => .pure journal
  | index, prepared :: others, journal => do
      let current ← read prepared.path
      if project.host.sha current ≠ project.host.sha prepared.before then
        .raise (transactionError
          (text "destination drift before write: " ++ joinParts prepared.path))
      else
        faultAt fault "before_destination" journal
        project.mutate prepared
        faultAt fault "after_destination" journal
        let written ← read prepared.path
        if project.host.sha written ≠ project.host.sha prepared.data then
          .raise (transactionError
            (text "post-write verification failed: " ++ joinParts prepared.path))
        else
          let journal := journal.set "applied" (.int index)
          project.atomicWriteJson journalPath journal
          applyRecords fault journalPath (index + 1) others journal

/-- `commit` after the preflight, without its rollback. -/
def transact (fault : FaultHook) (txDir : Path) (journal : Json) (prepared : List PreparedFile)
    (retain : Bool) : FileProgram Json := do
  let journalPath := txDir ++ [text "journal.json"]
  .act (.mkdir txDir) reply
  faultAt fault "before_journal" journal
  project.atomicWriteJson journalPath journal
  faultAt fault "after_journal" journal
  let journal := journal.set "phase" (.str "APPLYING")
  project.atomicWriteJson journalPath journal
  let journal ← project.applyRecords fault journalPath 1 prepared journal
  let time ← now
  let journal := (journal.set "phase" (.str "COMMITTED")).set "committed" (.str time)
  project.atomicWriteJson journalPath journal
  faultAt fault "after_commit" journal
  if retain then .pure journal
  else
    unlinkMissing journalPath
    rmdir txDir
    .pure journal

/-- `recover_transaction` -/
def recoverTransaction (journalPath : Path) (forceRollback : Bool) : FileProgram Json := do
  let files ← look
  let journal ← FileProgram.ofExcept
    (project.readRecoveryJournal journalPath (files.contents? journalPath))
  let plan ← FileProgram.ofExcept (project.prepareRecovery journalPath forceRollback journal)
  project.preflightRecoveryBatch [plan]
  project.applyRecovery plan

/-- `except BaseException as original` in `commit`, once there is a journal. -/
def rollback (txDir : Path) (original : Raised) : FileProgram Json := do
  let journalPath := txDir ++ [text "journal.json"]
  if ← pathExists journalPath then
    let _ ← (project.recoverTransaction journalPath true).tryCatch fun _ =>
      .raise (transactionError "transaction failed (); rollback failed ()")
    .raise original
  else
    let files ← look
    if files.isDir txDir && files.isEmpty txDir then
      rmdir txDir
      .raise original
    else .raise original

/-- `recover_pending_transactions` of one name or of all names. -/
def recoverPending (stateDir : Path) (name : Option Text) (removeRecovered : Bool) :
    FileProgram (List Json) := do
  if ← pathExists stateDir then
    project.recoverCandidates stateDir (name.map ([·])) removeRecovered
  else .pure []

/-- `commit` -/
def commit (modes : Modes) (transaction : FileTransaction) (retain : Bool) :
    FileProgram Json := do
  mkdirParents transaction.stateDir
  let _ ← project.recoverPending transaction.stateDir (some transaction.name) true
  let found ← project.preflight modes transaction
  let txDir := transaction.stateDir ++ [found.txid]
  (project.transact transaction.fault txDir found.journal found.prepared retain).tryCatch
    (project.rollback txDir)

end Project

end CarbonLab.Aegis
