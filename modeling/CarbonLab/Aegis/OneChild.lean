import CarbonLab.Aegis.Rollback
import CarbonLab.Aegis.SubagentRuns

/-!
# The commands, side by side

Each command of `cmd_subagent` keeps the lease and the active children in agreement while
it holds the control lock, whatever it read before it took the lock, and the other
commands do not touch them.
-/

namespace CarbonLab.Aegis

namespace Subagent

open StateStore

variable {ι : Type} {host : Host}

/-! ## What is written into a lease -/

/-- `uuid.uuid4().hex` never repeats itself and is not empty. -/
structure Uuids (host : Host) : Prop where
  distinct : Function.Injective host.entropy.uuid
  nonempty : ∀ tick, host.entropy.uuid tick ≠ []

theorem plain_uuid (tick : ℕ) : (Json.str (host.entropy.uuid tick)).Plain :=
  Json.plain_str.mpr (mergeSurrogates_ascii (host.uuid_ascii tick))

theorem mergeSurrogates_ne_nil {string : Text} (filled : string ≠ []) :
    mergeSurrogates string ≠ [] := by
  fun_cases mergeSurrogates string <;> simp_all

/-- A known role is written as it is. -/
structure Writable (string : Text) : Prop where
  plain : (Json.str string).Plain
  filled : string ≠ []

theorem writable_of_ascii {string : Text} (filled : string ≠ [])
    (ascii : ∀ letter ∈ string, letter.val < 128) : Writable string :=
  ⟨Json.plain_str.mpr (mergeSurrogates_ascii ascii), filled⟩

theorem writable_of_isRoleName {name : Text} (named : isRoleName name = true) : Writable name := by
  simp only [isRoleName, startsWith, Bool.and_eq_true, decide_eq_true_eq, List.all_eq_true,
    Bool.or_eq_true, List.isPrefixOf_iff_prefix] at named
  obtain ⟨⟨⟨rest, rfl⟩, long, _⟩, letters⟩ := named
  refine writable_of_ascii ?_ fun letter member => ?_
  · intro empty
    rw [empty] at long
    simp at long
  · rcases List.mem_append.mp member with first | later
    · have all : ∀ letter ∈ text "aegis_", letter.val < 128 := by simp [text]
      exact all letter first
    · have small := letters letter (by simpa [text] using later)
      rcases small with alnum | underscore
      · simp only [isLowerAlnum, Bool.or_eq_true, Bool.and_eq_true, decide_eq_true_eq] at alnum
        omega
      · rw [underscore]
        simp [code]

theorem writable_of_knows {framework : Framework} {role : Text}
    (knows : framework.knows role = true) : Writable role := by
  rw [Framework.knows, Bool.or_eq_true, decide_eq_true_eq, decide_eq_true_eq] at knows
  rcases knows with builtin | registered
  · have ascii : ∀ name ∈ builtinRoles, name ≠ [] ∧ ∀ letter ∈ name, letter.val < 128 := by
      simp [builtinRoles, text]
    exact writable_of_ascii (ascii role builtin).1 (ascii role builtin).2
  · exact writable_of_isRoleName (framework.roles_named role registered)

theorem Valid.writable {id : Text} {task : Json} (valid : Valid host id task) : Writable id := by
  refine ⟨plain_of_canonical valid.canonical, ?_⟩
  rintro rfl
  cases valid.canonical

section Payload

variable {owner : Owner} {tick nonce created : ℕ} {id role : Text}

/-- The fields of a new lease. -/
def freshFields (host : Host) (owner : Owner) (tick nonce created : ℕ) (id role : Text) :
    List (Text × Json) :=
  [("schema", .int 2), ("lease_id", .str (leaseName host tick)),
    ("owner_nonce", .str (host.entropy.uuid nonce)), ("task_id", .str id), ("role", .str role),
    ("parent_id", .str id), ("opened_by_pid", .int owner.pid),
    ("process_identity", (owner.identity.map Json.str).getD .null),
    ("host", .str owner.hostname), ("created", .str (host.entropy.now created)),
    ("purpose", .str purpose)]

/-- A new lease. -/
def freshLease (host : Host) (owner : Owner) (tick nonce created : ℕ) (id role : Text) : Json :=
  .obj (Fields.ofPairs (freshFields host owner tick nonce created id role))

theorem get_freshLease (key : String) (value : Json)
    (member : (text key, value) ∈ freshFields host owner tick nonce created id role) :
    (freshLease host owner tick nonce created id role).get key = value := by
  have nodup : ((freshFields host owner tick nonce created id role).map (·.1)).Nodup := by
    simp [freshFields]
  have found : (freshLease host owner tick nonce created id role).get? key = some value :=
    Fields.get?_ofPairs member fun pair inside same =>
      congrArg Prod.snd (List.inj_on_of_nodup_map nodup inside member same)
  rw [Json.get, Json.getD, found, Option.getD_some]

theorem get_normalize_freshLease (key : String) (value : Json)
    (member : (text key, value) ∈ freshFields host owner tick nonce created id role) :
    (freshLease host owner tick nonce created id role).normalize.get key = value.normalize :=
  Json.get_normalize_ofPairs value (by simp [freshFields]) (by simp [freshFields]) member

/-- What is read of a new lease. -/
structure Reads (host : Host) (owner : Owner) (tick nonce : ℕ) (id role : Text) (data : Json) :
    Prop where
  proper : Proper data
  lease : data.get "lease_id" = .str (leaseName host tick)
  nonce_ : data.get "owner_nonce" = .str (host.entropy.uuid nonce)
  task : data.get "task_id" = .str id
  role_ : data.get "role" = .str role

theorem reads_freshLease (uuids : Uuids host) (named : Writable id) (known : Writable role) :
    Reads host owner tick nonce id role
      (freshLease host owner tick nonce created id role).normalize := by
  have lease := @get_normalize_freshLease host owner tick nonce created id role "lease_id"
    (.str (leaseName host tick)) (by simp [freshFields])
  have nonce_ := @get_normalize_freshLease host owner tick nonce created id role "owner_nonce"
    (.str (host.entropy.uuid nonce)) (by simp [freshFields])
  have task := @get_normalize_freshLease host owner tick nonce created id role "task_id"
    (.str id) (by simp [freshFields])
  have role_ := @get_normalize_freshLease host owner tick nonce created id role "role"
    (.str role) (by simp [freshFields])
  have hostname := @get_normalize_freshLease host owner tick nonce created id role "host"
    (.str owner.hostname) (by simp [freshFields])
  have schema := @get_normalize_freshLease host owner tick nonce created id role "schema"
    (.int 2) (by simp [freshFields])
  have aim := @get_normalize_freshLease host owner tick nonce created id role "purpose"
    (.str purpose) (by simp [freshFields])
  rw [plain_leaseName] at lease
  rw [plain_uuid] at nonce_
  rw [named.plain] at task
  rw [known.plain] at role_
  have absent (key : Text) (ascii : ∀ letter ∈ key, letter.val < 128)
      (unused : ∀ pair ∈ freshFields host owner tick nonce created id role, pair.1 ≠ key) :
      (freshLease host owner tick nonce created id role).normalize.get? key = none := by
    rw [freshLease, (Neat.ofPairs _).get?_normalize ascii, ← freshLease]
    have missing : (freshLease host owner tick nonce created id role).get? key = none :=
      Fields.get?_ofPairs_eq_none unused
    rw [missing]
    rfl
  refine ⟨⟨Json.plain_normalize _, ?_, schema, ?_, ?_, ?_⟩, lease, nonce_, task, role_⟩
  · intro key member
    simp only [leaseStrings, List.mem_cons, List.not_mem_nil, or_false] at member
    rcases member with rfl | rfl | rfl | rfl | rfl
    · exact ⟨_, lease, by simp [leaseName, text]⟩
    · exact ⟨_, nonce_, uuids.nonempty nonce⟩
    · exact ⟨_, task, named.filled⟩
    · exact ⟨_, role_, known.filled⟩
    · exact ⟨_, hostname, mergeSurrogates_ne_nil owner.hostname_ne⟩
  · rw [aim]
    exact Json.plain_str.mpr (mergeSurrogates_text _)
  · rfl
  · exact ⟨absent "exists" (by simp [text]) (by simp [freshFields]),
      absent "age_seconds" (by simp [text]) (by simp [freshFields])⟩

/-- A proper lease is read. -/
theorem inspectContents_of_proper {data : Json} {bytes : Bytes}
    (reads : readJson host.floats bytes = some data) (proper : Proper data) :
    inspectContents host (some bytes) = .lease data := by
  have strings : leaseStrings.all (fun key => (data.get key).str?.any (· ≠ [])) = true := by
    rw [List.all_eq_true]
    intro key member
    obtain ⟨string, is, filled⟩ := proper.strings key member
    rw [is]
    simpa [Json.str?] using filled
  simp only [inspectContents, reads]
  exact if_pos ⟨proper.object, strings⟩

/-- The process that wrote a lease may release it. -/
theorem Reads.checkLease {data : Json} (reads : Reads host owner tick nonce id role data) :
    checkLease (.lease data) (.str (leaseName host tick)) (.str (host.entropy.uuid nonce)) (.str id)
      (.str role) = .ok () := by
  simp [Subagent.checkLease, Inspection.get, reads.lease, reads.nonce_, reads.task, reads.role_,
    Json.equal_str]

end Payload

/-! ## Commands that hold the lock -/

/-- An opened child is tracked. -/
def Ends (host : Host) (outcome : Except Raised Outcome) (office : Office ι) : Prop :=
  ∀ task lease, outcome = .ok (.opened task lease) → ∃ id tick,
    lease.get "task_id" = .str id ∧ lease.get "lease_id" = .str (leaseName host tick) ∧
      Tracked host office id (leaseName host tick)

/-- The control lock may be released. -/
structure Settled (host : Host) (process : ι) (outcome : Except Raised Outcome)
    (office : Office ι) : Prop where
  control : office.control = some process
  agreed : Agreed host office
  ends : Ends host outcome office

section Commands

variable {process : ι} {office base : Office ι} {id : Text}

theorem ends_error {raised : Raised} : Ends host (.error raised) office :=
  fun _ _ is => by cases is

/-- What fails under the lock with the lease as it was. -/
theorem settled_error {raised : Raised} (agreed : Agreed host base)
    (holding : Holding host process base base.lease office) :
    Settled host process (.error raised) office :=
  ⟨holding.control, holding.same.agreed holding.lease agreed, ends_error⟩

/-- The lease is read again under the lock: it is that of the active child. -/
theorem Agreed.child {data : Json} (agreed : Agreed host base)
    (is : inspectContents host base.lease = .lease data)
    (task : (data.get "task_id").equal (.str id) = true) :
    childOf host base id ≠ .null ∧
      (childOf host base id).get "lease_id" = data.get "lease_id" ∧
      (childOf host base id).get "role" = data.get "role" ∧
      ∀ other ≠ id, childOf host base other = .null := by
  obtain ⟨bytes, there, reads⟩ := inspectContents_eq_lease is
  obtain ⟨data', id', reads', _, task', facts⟩ := agreed.busy bytes there
  cases reads.symm.trans reads'
  rw [task', Json.equal_str, Json.str.injEq] at task
  subst task
  exact facts

/-- A task that was read before has a child with a lease that is tracked. -/
theorem child_of_loaded {loaded : Json} (sound : Sound host office)
    (stores : stored host office id = some loaded)
    (active : (loaded.get "active_child").truthy = true) :
    childOf host office id = loaded.get "active_child" ∧ ∃ tick,
      (loaded.get "active_child").get "lease_id" = .str (leaseName host tick) ∧
      (loaded.get "active_child").get? "lease_id" = some (.str (leaseName host tick)) ∧
      Tracked host office id (leaseName host tick) := by
  have is := (views_of_stored stores).1
  have there : childOf host office id ≠ .null := by
    rw [is]
    intro null
    rw [null] at active
    cases active
  obtain ⟨tick, leaseIs, tracked⟩ := sound.child id there
  rw [is] at leaseIs
  refine ⟨is, tick, leaseIs, ?_, tracked⟩
  obtain ⟨value, found⟩ := Option.isSome_iff_exists.mp (isSome_of_get leaseIs (by simp))
  rw [Json.get, Json.getD, found, Option.getD_some] at leaseIs
  rw [found, leaseIs]

/-- A new task has no child. -/
theorem readTask_create {title mode complexity risk : Text} {tick : ℕ} {task : Json}
    {disk : TaskDisk}
    (done : create host id title mode complexity risk (host.entropy.now tick) = .ok (task, disk)) :
    ∃ read, readTask host disk = some read ∧ read.Plain ∧ read.get "active_child" = .null ∧
      read.get? "child_history" = some (.arr []) := by
  obtain ⟨proper, rfl, name, _, rfl⟩ := create_eq_ok done
  have plain := @StateStore.Proper.plain host id (strip title) mode complexity risk
    (host.entropy.now tick) proper (Host.plain_now tick)
  refine ⟨_, ?_, plain, get_newTask_ "active_child" .null (by simp [newFields]),
    get?_newTask_ "child_history" (.arr []) (by simp [newFields])⟩
  rw [readTask, Option.bind_some, fileText_newTask, readJson_fileText plain]

theorem quiet_of_create {after : Office ι} {title mode complexity risk : Text} {tick : ℕ}
    {task : Json} {disk : TaskDisk} (absent : office.tasks id = none)
    (done : create host id title mode complexity risk (host.entropy.now tick) = .ok (task, disk))
    (tasks : after.tasks = Function.update office.tasks id (some disk))
    (lease : after.lease = office.lease) (control : after.control = office.control)
    (ticks : office.ticks ≤ after.ticks) : Quiet host office after := by
  obtain ⟨read, reads, plain, idle, empty⟩ := readTask_create done
  have missing : stored host office id = none := by
    rw [stored, absent]
    rfl
  refine ⟨⟨fun other => ?_, fun other => ?_, fun other busy => ?_⟩, lease, control, ticks,
    fun other task is => ?_⟩
  · rw [childOf_update tasks reads]
    split
    · next same =>
        rw [same, idle, childOf, missing]
        rfl
    · rfl
  · rw [handoffsOf_update tasks reads]
    split
    · next same =>
        rw [same, itemsUnder, listD, Json.getD, empty, handoffsOf, missing]
        rfl
    · rfl
  · rw [tasks, Function.update_of_ne]
    rintro rfl
    rw [childOf, missing] at busy
    exact busy rfl
  · rw [stored_update tasks reads] at is
    split at is
    · cases is
      exact Or.inr plain
    · exact Or.inl is

variable [DecidableEq ι]

theorem secured_locked {program : Command Outcome}
    (secured : Secured host process program (Settled host process) office) :
    Secured host process (program.andFinally releaseControl) (Ends host) office := by
  refine Program.Secures.andFinally Rely.refl (secured.mono fun outcome middle _ settled => ?_)
  have holding : Holding host process middle middle.lease middle := ⟨settled.control, rfl, .refl⟩
  refine secured_releaseControl holding (fun later held => held.same.agreed held.lease settled.agreed) ?_
  intro later relies after relies' last relies'' _ task lease is
  obtain ⟨id, tick, idIs, leaseIs, tracked⟩ := settled.ends task lease is
  refine ⟨id, tick, idIs, leaseIs, (relies'.trans relies'').tracked _ _ ?_⟩
  exact relies.tracked _ _ tracked

/-- `LeaseLock.acquire`, under the lock. -/
theorem secured_acquireLease {owner : Owner} {role : Text} {lease : Option Bytes}
    {final : Except Raised Json → Office ι → Prop} (uuids : Uuids host) (named : Writable id)
    (known : Writable role) (holding : Holding host process base lease office)
    (raises : ∀ raised later, Holding host process base lease later → final (.error raised) later)
    (returns : lease = none → ∀ tick nonce created later, Sound host later → tick < later.ticks →
      (∀ other, (childOf host base other).get "lease_id" ≠ .str (leaseName host tick) ∧
        ∀ entry ∈ handoffsOf host base other, entry.get "lease_id" ≠ .str (leaseName host tick)) →
      Holding host process base
        (some (leaseText host (freshLease host owner tick nonce created id role))) later →
      final (.ok (freshLease host owner tick nonce created id role)) later) :
    Secured host process (acquireLease host owner id role) final office := by
  refine secured_uuid fun first relies sound => ?_
  have held := holding.rely relies
  have fresh (other : Text) := sound.fresh other first.ticks le_rfl
  simp only [held.same.child, held.same.handoffs] at fresh
  refine secured_uuid fun second relies' _ => ?_
  have held' := (held.quiet .tick).rely relies'
  refine secured_now fun third created relies'' _ => ?_
  have held'' := (held'.quiet .tick).rely relies''
  refine secured_create (held''.quiet .tick) ?_ ?_
  · exact fun _ _ later _ kept last relies3 _ => raises _ last (kept.rely relies3)
  · intro free later ticks _ made
    refine Program.Secures.bind Rely.refl (secured_write made ?_ ?_)
    · intro data reads
      rw [leaseText, readJson_jsonLine, Option.some.injEq] at reads
      have facts := @reads_freshLease host owner first.ticks second.ticks created id role uuids named
        known
      replace reads : (freshLease host owner first.ticks second.ticks created id role).normalize = data :=
        reads
      rw [reads] at facts
      refine ⟨facts.proper, fun other is => absurd is ?_⟩
      rw [facts.lease]
      exact (fresh other).1
    · intro last ticks' sound' written after relies3 sound3
      refine returns free first.ticks second.ticks created after sound3 ?_ fresh (written.rely relies3)
      have one := relies'.ticks
      have two := relies''.ticks
      have three := relies3.ticks
      simp only at one two ticks
      omega

/-- `subagent open`, under the lock. -/
theorem secured_openLocked {owner : Owner} {role : Text} {brief : Json} (uuids : Uuids host)
    (named : Writable id) (known : Writable role) (control : base.control = some process)
    (agreed : Agreed host base) :
    Secured host process (openLocked host owner id role brief) (Settled host process) base := by
  have holding : Holding host process base base.lease base := ⟨control, rfl, .refl⟩
  refine Program.Secures.bind Rely.refl (secured_acquireLease uuids named known holding ?_ ?_)
  · exact fun _ _ held => settled_error agreed held
  intro free tick nonce created later sound early fresh held
  have facts := @reads_freshLease host owner tick nonce created id role uuids named known
  have reads : readJson host.floats
      (leaseText host (freshLease host owner tick nonce created id role)) = _ := readJson_jsonLine _
  have leaseIs := @get_freshLease host owner tick nonce created id role "lease_id"
    (.str (leaseName host tick)) (by simp [freshFields])
  have nonceIs := @get_freshLease host owner tick nonce created id role "owner_nonce"
    (.str (host.entropy.uuid nonce)) (by simp [freshFields])
  have taskIs := @get_freshLease host owner tick nonce created id role "task_id"
    (.str id) (by simp [freshFields])
  refine Program.Secures.tryCatch Rely.refl ?_
  refine secured_now fun now _ relies _ => ?_
  refine secured_mutate (fun raised last relies' => ?_) ?_
  · -- The lease is released again.
    have held' := ((held.rely relies).quiet .tick).rely relies'
    refine Program.Secures.bind Rely.refl (secured_releaseLease held' (fun refuses => ?_) ?_)
    · refine absurd ?_ (refuses _ (inspectContents_of_proper reads facts.proper))
      rw [leaseIs, nonceIs]
      exact facts.checkLease
    · intro _ _ _ after _ released final relies'' _
      exact settled_error agreed (free ▸ released.rely relies'')
  · intro last disk disk' current returned after relies' sound' there mutated tasks lease control' ticks
    have held' := ((held.rely relies).quiet .tick).rely relies'
    have idle := agreed.idle free
    have early' : tick < last.ticks := by
      have step := relies'.ticks
      have step' := relies.ticks
      simp only at step
      omega
    have unused : ∀ entry ∈ handoffsOf host last id,
        entry.get "lease_id" ≠ .str (leaseName host tick) := by
      rw [held'.same.handoffs]
      exact (fresh id).2
    have leaseIs' := lease.trans held'.lease
    have written : ∀ bytes data, last.lease = some bytes → readJson host.floats bytes = some data →
        data.get "task_id" = .str id ∧ data.get "role" = .str role ∧
          data.get "owner_nonce" = .str (host.entropy.uuid nonce) := by
      intro bytes data is reads'
      cases is.symm.trans held'.lease
      cases reads'.symm.trans reads
      exact ⟨facts.task, facts.role_, facts.nonce_⟩
    obtain ⟨sound'', given, tracked, child⟩ := mutated.opened sound' there uuids.distinct leaseIs
      early' unused (by rw [held'.same.child, idle]) written known.plain nonceIs (plain_uuid nonce)
      tasks lease held'.control (control'.trans held'.control) ticks
    refine ⟨sound'', given, fun final relies'' _ => ?_⟩
    have held'' : Holding host process after after.lease after :=
      ⟨control'.trans held'.control, rfl, .refl⟩
    have kept := held''.rely relies''
    refine ⟨kept.control, ?_, ?_⟩
    · refine kept.same.agreed kept.lease ⟨fun gone => ?_, fun bytes is => ?_⟩
      · cases gone.symm.trans leaseIs'
      · cases is.symm.trans leaseIs'
        refine ⟨_, id, reads, facts.proper, facts.task, ?_⟩
        simp only [child, if_true]
        refine ⟨?_, ?_, ?_, ?_⟩
        · rintro ⟨⟩
        · rw [get_newChild_lease leaseIs, facts.lease]
        · rw [get_newChild_role known.plain, facts.role_]
        · intro other differs
          rw [if_neg differs, held'.same.child, idle]
    · intro task lease is
      cases is
      exact ⟨id, tick, taskIs, leaseIs, relies''.tracked _ _ tracked⟩

/-- A lease is that of the one active child. -/
structure Owns (host : Host) (base : Office ι) (id : Text) (data : Json) : Prop where
  proper : Proper data
  task : data.get "task_id" = .str id
  active : childOf host base id ≠ .null
  lease : (childOf host base id).get "lease_id" = data.get "lease_id"
  role : (childOf host base id).get "role" = data.get "role"
  nonce : (childOf host base id).get "owner_nonce" = data.get "owner_nonce"
  alone : ∀ other ≠ id, childOf host base other = .null

/-- The lease is put back, and the exception goes on. -/
theorem secured_undo {data : Json} {raised : Raised} (owns : Owns host base id data)
    (holding : Holding host process base none office) :
    Secured host process ((restore host (.lease data)).bind fun _ => .raise raised)
      (Settled host process) office := by
  have reads : readJson host.floats (leaseText host data) = some data :=
    (readJson_jsonLine data).trans (congrArg some owns.proper.plain)
  refine Program.Secures.bind Rely.refl (secured_restore owns.proper ?_ holding ?_)
  · intro data' reads'
    cases reads.symm.trans reads'
    refine ⟨owns.proper, fun other is => ?_⟩
    obtain ⟨name, nameIs, _⟩ := owns.proper.strings "lease_id" (by simp [leaseStrings])
    by_cases same : other = id
    · subst same
      exact ⟨owns.task, owns.role, owns.nonce⟩
    · rw [owns.alone other same, nameIs] at is
      exact absurd is null_get_ne
  · intro later _ held last relies _
    have held' := held.rely relies
    refine ⟨held'.control, ⟨fun gone => ?_, fun bytes is => ?_⟩, ends_error⟩
    · cases gone.symm.trans held'.lease
    · cases is.symm.trans held'.lease
      refine ⟨data, id, reads, owns.proper, owns.task, ?_⟩
      simp only [held'.same.child]
      exact ⟨owns.active, owns.lease, owns.role, owns.alone⟩

/-- The child is handed off after its lease was removed, or the lease is put back. -/
theorem secured_handOff {edit : Text → Edit} {wrap : Json → Outcome} {undo : Command Unit} {tick : ℕ}
    (handsOff : ∀ time, HandsOff (edit time) (leaseName host tick))
    (wraps : ∀ updated task lease, wrap updated ≠ .opened task lease)
    (tracked : Tracked host base id (leaseName host tick))
    (alone : ∀ other ≠ id, childOf host base other = .null)
    (holding : Holding host process base none office)
    (undoes : ∀ raised later, Holding host process base none later →
      Secured host process (undo.bind fun _ => .raise raised) (Settled host process) later) :
    Secured host process
      (Program.tryCatch (do
        let time ← now
        let updated ← mutate id (edit time) true
        return wrap updated) fun raised => do
          undo
          .raise raised) (Settled host process) office := by
  refine Program.Secures.tryCatch Rely.refl ?_
  refine secured_now fun middle time relies _ => ?_
  have held := (holding.rely relies).quiet .tick
  refine secured_mutate (fun raised last relies' => undoes raised last (held.rely relies')) ?_
  intro last disk disk' current returned after relies' sound there mutated tasks lease control ticks
  have held' := held.rely relies'
  obtain ⟨sound', given, _, child⟩ := mutated.handed sound there (handsOff _)
    (held'.same.tracked.mpr tracked) tasks lease held'.control (control.trans held'.control) ticks
  refine ⟨sound', given, fun final relies'' _ => ?_⟩
  have held'' : Holding host process after after.lease after :=
    ⟨control.trans held'.control, rfl, .refl⟩
  have kept := held''.rely relies''
  have leaseIs := lease.trans held'.lease
  refine ⟨kept.control, kept.same.agreed kept.lease ⟨fun _ other => ?_, fun bytes is => ?_⟩, ?_⟩
  · rw [child]
    split
    · rfl
    · next differs => rw [held'.same.child, alone other differs]
  · cases is.symm.trans leaseIs
  · intro task lease is
    exact absurd (Except.ok.inj is) (wraps returned task lease)

/-- `subagent recover`, under the lock. -/
theorem secured_recoverLocked {observe : Observe} {child : Json} {reason : Text} {tick : ℕ}
    (sound : Sound host base) (control : base.control = some process) (agreed : Agreed host base)
    (leaseIs : child.get? "lease_id" = some (.str (leaseName host tick)))
    (tracked : Tracked host base id (leaseName host tick)) :
    Secured host process (recoverLocked host observe child id reason) (Settled host process) base := by
  have holding : Holding host process base base.lease base := ⟨control, rfl, .refl⟩
  have handsOff (time : Text) : HandsOff (recoverEdit observe child time reason)
      (leaseName host tick) := recoverEdit_handsOff leaseIs
  refine Program.Secures.bind Rely.refl (secured_forceClear holding ?_ ?_ ?_)
  · exact fun _ _ _ held => settled_error agreed held
  · intro free later _ held
    refine secured_handOff handsOff (fun _ _ _ is => by cases is) tracked
      (fun other _ => agreed.idle free other) (free ▸ held) fun raised last held' => ?_
    exact fun final relies _ => settled_error agreed (free ▸ held'.rely relies)
  · intro data is task later _ held
    obtain ⟨bytes, there, reads⟩ := inspectContents_eq_lease is
    obtain ⟨proper, fits⟩ := sound.lease bytes there data reads
    obtain ⟨active, lease, role, alone⟩ := agreed.child is task
    obtain ⟨_, _, nonce⟩ := fits id lease
    have owns : Owns host base id data :=
      ⟨proper, Json.equal_str.mp task, active, lease, role, nonce, alone⟩
    exact secured_handOff handsOff (fun _ _ _ is => by cases is) tracked alone held
      fun raised last held' => secured_undo owns held'

/-- What `release` has checked. -/
theorem checkLease_eq_ok {data name nonce task role : Json}
    (passes : checkLease (.lease data) name nonce task role = .ok ()) :
    (name = .null ∨ (data.get "lease_id").equal name = true) ∧
      (task = .null ∨ (data.get "task_id").equal task = true) := by
  rw [checkLease, List.forM_eq_forM] at passes
  simp only [List.forM_cons, bind_eq_ok, Inspection.get] at passes
  obtain ⟨_, name, _, _, _, task, _⟩ := passes
  exact ⟨require_eq_ok.mp name, require_eq_ok.mp task⟩

/-- `subagent close`, under the lock.  The lease that is put back is one that was read
before: it is that of the same child. -/
theorem secured_closeLocked {second : Office ι} {child data : Json} {outcome summary : Text}
    {evidence : List Text} {tick : ℕ} (control : base.control = some process)
    (agreed : Agreed host base) (sound : Sound host second) (tracks : Tracks host second base)
    (leaseIs : child.get? "lease_id" = some (.str (leaseName host tick)))
    (tracked : Tracked host second id (leaseName host tick))
    (read : inspectContents host second.lease = .lease data)
    (dataIs : data.get "lease_id" = .str (leaseName host tick)) :
    Secured host process (closeLocked host child (.lease data) id outcome summary evidence)
      (Settled host process) base := by
  have holding : Holding host process base base.lease base := ⟨control, rfl, .refl⟩
  have fails (raised : Raised) : ∀ later, Rely host process base later → Sound host later →
      Settled host process (.error raised) later :=
    fun later relies _ => settled_error agreed (holding.rely relies)
  refine secured_lift (fun lease leaseFound => ?_) fun raised _ => fails raised
  cases leaseIs.symm.trans (item_eq_ok.mp leaseFound)
  refine secured_lift (fun role _ => ?_) fun raised _ => fails raised
  refine Program.Secures.bind Rely.refl (secured_releaseLease holding ?_ ?_)
  · exact fun _ _ _ _ held => settled_error agreed held
  intro data' is passes later _ held
  obtain ⟨name, task⟩ := checkLease_eq_ok passes
  replace name := name.resolve_left (by simp)
  replace task := task.resolve_left (by simp)
  obtain ⟨active, lease, _, alone⟩ := agreed.child is task
  have same : (childOf host base id).get "lease_id" = .str (leaseName host tick) :=
    lease.trans (Json.equal_str.mp name)
  have before := tracks.child id _ tracked same
  obtain ⟨bytes, there, reads⟩ := inspectContents_eq_lease read
  obtain ⟨proper, fits⟩ := sound.lease bytes there data reads
  obtain ⟨idIs, roleIs, nonceIs⟩ := fits id (by rw [before, same, dataIs])
  have owns : Owns host base id data :=
    ⟨proper, idIs, active, same.trans dataIs.symm, before ▸ roleIs, before ▸ nonceIs, alone⟩
  exact secured_handOff (fun time => closeEdit_handsOff leaseIs) (fun _ _ _ is => by cases is)
    (tracks.tracked id _ tracked) alone held fun raised last held' => secured_undo owns held'

/-! ## Whole commands -/

theorem secured_openChild {framework : Framework} {owner : Owner} {task : Option Text}
    {role : Text} {evidence : List Text} (uuids : Uuids host) :
    Secured host process (openChild host framework owner task role evidence) (Ends host) office := by
  refine secured_loadTask (fun _ _ _ => ends_error) ?_
  intro first id loaded _ _ _ _ valid
  refine secured_lift (fun _ may => ?_) fun _ _ _ _ _ => ends_error
  refine secured_loadEvidence (fun _ _ _ => ends_error) fun second records _ _ => ?_
  refine secured_lift (fun brief _ => ?_) fun _ _ _ _ _ => ends_error
  refine secured_acquireControl (fun _ _ => ends_error) fun base _ agreed control _ => ?_
  have knows : framework.knows role = true := by
    simp only [mayOpen, bind_eq_ok, require_eq_ok, exists_const] at may
    obtain ⟨_, _, _, knows⟩ := may
    exact knows
  have idIs : idOf loaded = id := by
    rw [idOf, valid.id_]
    rfl
  rw [idIs]
  exact secured_locked (secured_openLocked uuids (Valid.writable valid) (writable_of_knows knows)
    control agreed)

theorem secured_value {α : Type} {value : Except Raised α} {final : Except Raised α → Office ι → Prop}
    (ends : ∀ later, Rely host process office later → Sound host later → final value later) :
    Secured host process (lift value) final office := by
  cases value with
  | ok result => exact ends
  | error raised => exact ends

theorem secured_checkEvidence {evidence : List Text} {next : Unit → Command Outcome}
    (returns : ∀ later, Rely host process office later → Secured host process (next ()) (Ends host) later) :
    Secured host process ((checkEvidence id evidence).bind next) (Ends host) office := by
  rw [checkEvidence]
  split
  · exact returns office .refl
  · refine Program.Secures.bind Rely.refl ?_
    refine secured_loadEvidence (fun _ _ _ => ends_error) fun later records relies _ => ?_
    refine secured_value fun after relies' _ => ?_
    split
    · exact returns after (relies.trans relies')
    · exact ends_error

theorem secured_closeChild {task lease : Option Text} {outcome summary : Text}
    {evidence : List Text} :
    Secured host process (closeChild host task lease outcome summary evidence) (Ends host) office := by
  refine secured_loadTask (fun _ _ _ => ends_error) ?_
  intro first id loaded _ sound _ stores valid
  refine secured_require (fun active => ?_) fun _ _ _ => ends_error
  obtain ⟨_, tick, leaseIs, leaseFound, tracked⟩ := child_of_loaded sound stores active
  refine secured_inspect fun second relies sound' => ?_
  refine secured_lift (fun _ may => ?_) fun _ _ _ _ _ => ends_error
  simp only [mayClose, bind_eq_ok, require_eq_ok, exists_const, leaseIs, Json.equal_str] at may
  obtain ⟨⟨_, name, _⟩, _⟩ := may
  refine secured_checkEvidence fun third relies' => ?_
  refine secured_acquireControl (fun _ _ => ends_error) fun base _ agreed control tracks => ?_
  have idIs : idOf loaded = id := by
    rw [idOf, valid.id_]
    rfl
  rw [idIs]
  cases read : inspectContents host second.lease with
  | missing =>
      rw [read] at name
      cases name
  | corrupt =>
      rw [read] at name
      cases name
  | lease data =>
      rw [read] at name
      exact secured_locked (secured_closeLocked control agreed sound'
        (relies'.toTracks.trans tracks) leaseFound (relies.tracked _ _ tracked) read name)

theorem secured_recoverChild {observe : Observe} {force : Bool} {task : Option Text}
    {reason : Text} :
    Secured host process (recoverChild host observe force task reason) (Ends host) office := by
  refine secured_require (fun _ => ?_) fun _ _ _ => ends_error
  refine secured_inspect fun first _ _ => ?_
  refine secured_lift (fun target _ => ?_) fun _ _ _ _ _ => ends_error
  refine secured_loadTask (fun _ _ _ => ends_error) ?_
  intro second id loaded _ sound given stores valid
  have idIs := given target rfl
  subst idIs
  refine secured_require (fun may => ?_) fun _ _ _ => ends_error
  obtain ⟨_, tick, _, leaseFound, tracked⟩ := child_of_loaded sound stores may.1
  refine secured_acquireControl (fun _ _ => ends_error) fun base sound' agreed control tracks => ?_
  exact secured_locked (secured_recoverLocked sound' control agreed leaseFound
    (tracks.tracked _ _ tracked))

theorem secured_editTask {edit : Edit} (spares : SparesChild edit) :
    Secured host process (editTask id edit) (Ends host) office := by
  refine secured_mutate (fun _ _ _ => ends_error) ?_
  intro later disk disk' current returned after _ sound there mutated tasks lease control ticks
  have quiet := mutated.quiet sound there spares rfl tasks lease control ticks
  exact ⟨quiet.sound sound, fun other _ => quiet.rely other, fun _ _ _ _ _ is => by cases is⟩

theorem secured_newTask {title mode complexity risk : Text} :
    Secured host process (Subagent.newTask id title mode complexity risk) (Ends host) office := by
  intro later relies sound answer after served
  have fails (raised : Raised) : Secured host process
      (lift ((Except.error raised : Except Raised Json).map Outcome.changed)) (Ends host) later :=
    fun _ _ _ => ends_error
  rcases served with ⟨workspace, is⟩ | ⟨⟨raised, rfl⟩, rfl⟩
  · rw [serve] at is
    split at is
    · obtain ⟨rfl, rfl⟩ := Prod.mk.inj is
      exact ⟨sound, fun other _ => .refl, fails _⟩
    · next absent =>
        split at is
        · obtain ⟨rfl, rfl⟩ := Prod.mk.inj is
          exact ⟨sound, fun other _ => .refl, fails _⟩
        · next task disk done =>
            obtain ⟨rfl, rfl⟩ := Prod.mk.inj is
            have quiet : Quiet host later { later with
                tasks := Function.update later.tasks id (some disk)
                current := some id
                ticks := later.ticks + 1 } :=
              quiet_of_create absent done rfl rfl rfl (Nat.le_succ _)
            exact ⟨quiet.sound sound, fun other _ => quiet.rely other, fun _ _ _ _ _ is => by cases is⟩
  · exact ⟨sound, fun other _ => .refl, fails _⟩

/-- Every command keeps the children in agreement with the lease. -/
theorem secured_of_issues {framework : Framework} {owner : Owner} {command : Command Outcome}
    (uuids : Uuids host) (issues : Issues host framework owner command) :
    Secured host process command (Ends host) office := by
  cases issues with
  | open_ task role evidence => exact secured_openChild uuids
  | close task lease outcome summary evidence => exact secured_closeChild
  | recover observe force task reason => exact secured_recoverChild
  | status =>
      refine secured_inspect fun later _ _ => ?_
      exact fun _ _ _ _ _ is => by cases is
  | edit id edit spares => exact secured_editTask spares
  | new id title mode complexity risk => exact secured_newTask
  | taskStatus task =>
      refine secured_loadTask (fun _ _ _ => ends_error) ?_
      intro later id loaded _ _ _ _ _
      exact fun _ _ _ _ _ is => by cases is

end Commands

/-! ## Runs -/

/-- A state in which no child is open, with files as the store writes them; the
identifiers of new leases are new. -/
structure Starts (host : Host) (office : Office ι) : Prop where
  lease : office.lease = none
  control : office.control = none
  plain : ∀ id task, stored host office id = some task → task.Plain
  idle : ∀ id, childOf host office id = .null
  fresh : ∀ id, ∀ entry ∈ handoffsOf host office id, ∀ tick,
    entry.get "lease_id" ≠ .str (leaseName host tick)

theorem Starts.sound {office : Office ι} (starts : Starts host office) : Sound host office where
  plain := starts.plain
  fresh id tick _ := by
    rw [starts.idle]
    exact ⟨null_get_ne, fun entry member => starts.fresh id entry member tick⟩
  child id active := absurd (starts.idle id) active
  handoffs id entry member tick is := absurd is (starts.fresh id entry member tick)
  lease bytes is := by cases starts.lease.symm.trans is
  rests id active := absurd (starts.idle id) active
  free _ := ⟨fun _ => starts.idle, fun bytes is => by cases starts.lease.symm.trans is⟩

/-- No lease and no active child, or one lease and one active child that name each other. -/
def OneChild (host : Host) (office : Office ι) : Prop :=
  (office.lease = none ∧ ∀ id, childOf host office id = .null) ∨
    ∃ bytes data id, office.lease = some bytes ∧ readJson host.floats bytes = some data ∧
      data.get "task_id" = .str id ∧
      childOf host office id ≠ .null ∧ (∀ other ≠ id, childOf host office other = .null) ∧
      (childOf host office id).get "lease_id" = data.get "lease_id" ∧
      (childOf host office id).get "role" = data.get "role"

/-- The lease is the contents of the file. -/
def Exists (host : Host) (office : Office ι) (lease : Json) : Prop :=
  ∃ bytes data, office.lease = some bytes ∧ readJson host.floats bytes = some data ∧
    data.get "lease_id" = lease.get "lease_id"

theorem Agreed.oneChild {office : Office ι} (agreed : Agreed host office) : OneChild host office := by
  cases is : office.lease with
  | none => exact Or.inl ⟨is, agreed.idle is⟩
  | some bytes =>
      obtain ⟨data, id, reads, _, task, active, lease, role, alone⟩ := agreed.busy bytes is
      exact Or.inr ⟨bytes, data, id, is, reads, task, active, alone, lease, role⟩

/-- A lease that is tracked and gone was handed off once. -/
theorem Agreed.handed {office : Office ι} {lease : Json} {id name : Text} (agreed : Agreed host office)
    (nameIs : lease.get "lease_id" = .str name) (tracked : Tracked host office id name)
    (gone : ¬ Exists host office lease) : countOf (handoffsOf host office id) name = 1 := by
  have inactive : (childOf host office id).get "lease_id" ≠ .str name := by
    intro active
    cases is : office.lease with
    | none =>
        rw [agreed.idle is] at active
        exact null_get_ne active
    | some bytes =>
        obtain ⟨data, owner, reads, _, _, _, same, _, alone⟩ := agreed.busy bytes is
        by_cases mine : id = owner
        · subst mine
          exact gone ⟨bytes, data, is, reads, by rw [← same, active, nameIs]⟩
        · rw [alone id mine] at active
          exact null_get_ne active
  rw [Tracked, if_neg inactive] at tracked
  exact tracked

section Reached

variable [DecidableEq ι] {framework : ι → Framework} {owner : ι → Owner} {start : Office ι}
  {pool : Pool ι Call Call.Reply Raised Outcome (Office ι)}

theorem secures_of_reaches (uuids : Uuids host) (starts : Starts host start)
    (reached : Pool.Reaches (Serves host)
      (fun process => Issues host (framework process) (owner process)) start pool) :
    Sound host pool.shared ∧ ∀ process program, pool.program process = some program →
      Secured host process program (Ends host) pool.shared :=
  @Pool.Reaches.secures ι Call Call.Reply Raised Outcome (Office ι) _ (Serves host) _ (Sound host)
    (Rely host) (fun _ => Ends host) start pool Rely.refl Rely.trans starts.sound
    (fun _ _ _ issues _ => secured_of_issues uuids issues) reached

/-- Whenever the control lock is free, at most one child is open, and it is that of the
lease; every child that was opened and whose lease is gone was handed off once. -/
theorem oneChild_of_reaches (uuids : Uuids host) (starts : Starts host start)
    (reached : Pool.Reaches (Serves host)
      (fun process => Issues host (framework process) (owner process)) start pool)
    (unheld : pool.shared.control = none) :
    OneChild host pool.shared ∧
      ∀ process task lease, pool.program process = some (.pure (.opened task lease)) →
        ¬ Exists host pool.shared lease → ∃ id name, lease.get "task_id" = .str id ∧
          lease.get "lease_id" = .str name ∧
          countOf (handoffsOf host pool.shared id) name = 1 := by
  obtain ⟨sound, secured⟩ := secures_of_reaches uuids starts reached
  have agreed := sound.free unheld
  refine ⟨agreed.oneChild, fun process task lease done gone => ?_⟩
  obtain ⟨id, tick, idIs, nameIs, tracked⟩ := secured process _ done pool.shared .refl sound task
    lease rfl
  exact ⟨id, leaseName host tick, idIs, nameIs, agreed.handed nameIs tracked gone⟩

end Reached

/-! ## A run -/

/-- Identifiers of 32 hexadecimal digits, as long as there are few of them. -/
def labUuid (tick : ℕ) : Text :=
  if tick < 16 then List.replicate 31 (code '0') ++ [hexDigit tick]
  else List.replicate (tick + 33) (code 'a')

theorem labUuid_ascii (tick : ℕ) : ∀ letter ∈ labUuid tick, letter.val < 128 := by
  intro letter member
  rw [labUuid] at member
  split at member
  · next small =>
      have digits : ∀ digit < 16, (hexDigit digit).val < 128 := by decide
      rcases List.mem_append.mp member with zero | digit
      · rw [List.eq_of_mem_replicate zero]
        decide
      · rw [List.mem_singleton.mp digit]
        exact digits tick small
  · rw [List.eq_of_mem_replicate member]
    decide

theorem labUuid_injective : Function.Injective labUuid := by
  intro first second same
  have digits : ∀ digit < 16, ∀ other < 16, hexDigit digit = hexDigit other → digit = other := by
    decide
  rw [labUuid, labUuid] at same
  split at same
  · next small =>
      split at same
      · next small' => exact digits _ small _ small' (by simpa using same)
      · have lengths := congrArg List.length same
        simp only [List.length_append, List.length_replicate, List.length_singleton] at lengths
        omega
  · split at same
    · have lengths := congrArg List.length same
      simp only [List.length_append, List.length_replicate, List.length_singleton] at lengths
      omega
    · simpa using congrArg List.length same

/-- A host with the digests of a new task, and of the task with an open child. -/
def labHost : Host :=
  { tableHost
      [(0, 0xe3b0c44298fc1c149afbf4c8996fb92427ae41e4649b934ca495991b7852b855),
        (948962555, 0x5aa47f2532067c926cca89abf9e61fb2e42960fefb060b823e9c93eaae6469b7),
        (895054216, 0x45c55625ab2741631a9311ccaf6ff65aef5b9133c544a069232c38f5532de139),
        (789667091, 0x7b691e9992c866e4ac23426c5e1bf9bdbc33f324e69d70f27e5524a45a53acc6),
        (364828140, 0x766b341a40022c793307f3c6f519675bb0f0fd32862da26a822bc579c9e9b33b),
        (705906764, 0x08a9cffa09883b8f13a7b4308f70f6f79f460fe7ea5f27d5e93537c8f40c2f93)] with
    entropy := { plainEntropy with uuid := labUuid }
    uuid_ascii := labUuid_ascii }

theorem labHost_uuids : Uuids labHost := by
  refine ⟨labUuid_injective, fun tick => ?_⟩
  change labUuid tick ≠ []
  rw [labUuid]
  split <;> simp

/-- The files of a new task. -/
def labDisk : Option TaskDisk :=
  match create labHost "t-1" "t" "read" "S" "low" (labHost.entropy.now 0) with
  | .ok (_, disk) => some disk
  | .error _ => none

/-- One new task. -/
def labOffice : Office Bool :=
  ⟨none, none, fun id => if id = "t-1" then labDisk else none, some "t-1", 0⟩

def labOwner : Owner := ⟨7, none, "lab", by simp [text]⟩

/-- Only the roles that are always known. -/
def labFramework : Framework := ⟨[], by simp⟩

/-- `subagent open worker` -/
def labOpen : Command Outcome := openChild labHost labFramework labOwner none "worker" []

/-- What `labOpen` returns and leaves. -/
def labOpened : Except Raised Outcome × Office Bool :=
  labOpen.run (serve labHost .null true) labOffice

theorem labOffice_starts : Starts labHost labOffice := by
  have read : ∀ id task, stored labHost labOffice id = some task → task.Plain ∧
      task.get "active_child" = .null ∧ itemsUnder task "child_history" = [] := by
    intro id task is
    rw [stored, labOffice] at is
    dsimp only at is
    split at is
    · rw [labDisk] at is
      split at is
      · next disk done =>
          obtain ⟨read, reads, plain, idle, empty⟩ := readTask_create done
          cases reads.symm.trans is
          refine ⟨plain, idle, ?_⟩
          rw [itemsUnder, listD, Json.getD, empty]
          rfl
      · cases is
    · cases is
  refine ⟨rfl, rfl, fun id task is => (read id task is).1, fun id => ?_, fun id entry member => ?_⟩
  · rw [childOf]
    cases is : stored labHost labOffice id with
    | none => rfl
    | some task => exact (read id task is).2.1
  · rw [handoffsOf] at member
    cases is : stored labHost labOffice id with
    | none =>
        rw [is] at member
        cases member
    | some task =>
        rw [is, Option.map_some, Option.getD_some, (read id task is).2.2] at member
        cases member

/-- One process runs `labOpen`. -/
theorem reaches_labOpen : Pool.Reaches (Serves labHost)
    (fun _ => Issues labHost labFramework labOwner) labOffice
    ⟨labOffice, Function.update (fun _ => none) true (some labOpen)⟩ :=
  .single (.start rfl (.open_ none "worker" []))

theorem serves_lab (call : Call) (office : Office Bool) : Serves labHost true call office
    (serve labHost .null true call office).1 (serve labHost .null true call office).2 :=
  Or.inl ⟨.null, rfl⟩

/-- The processes after `labOpen`. -/
theorem reaches_labOpened : ∃ pool : Pool Bool Call Call.Reply Raised Outcome (Office Bool),
    Pool.Reaches (Serves labHost) (fun _ => Issues labHost labFramework labOwner) labOffice pool ∧
      pool.shared = labOpened.2 ∧ pool.program true = some (.ended labOpened.1) := by
  have runs : (Function.update (fun _ => none) true (some labOpen) : Bool → _) true = some labOpen :=
    rfl
  obtain ⟨pool, reached, shared, program⟩ := reaches_labOpen.alone serves_lab runs
  change pool.shared = labOpened.2 at shared
  change pool.program true = some (.ended labOpened.1) at program
  exact ⟨pool, reached, shared, program⟩

/-- A child was opened. -/
def Outcome.isOpened : Outcome → Bool
  | .opened _ _ => true
  | _ => false

theorem oneChild_labOpened : ∃ pool : Pool Bool Call Call.Reply Raised Outcome (Office Bool),
    pool.shared.lease.isSome = true ∧
      (∃ task lease, pool.program true = some (.pure (.opened task lease))) ∧
      OneChild labHost pool.shared ∧
      ∀ process task lease, pool.program process = some (.pure (.opened task lease)) →
        ¬ Exists labHost pool.shared lease → ∃ id name, lease.get "task_id" = .str id ∧
          lease.get "lease_id" = .str name ∧
          countOf (handoffsOf labHost pool.shared id) name = 1 := by
  have facts : labOpened.2.lease.isSome = true ∧ labOpened.2.control = none ∧
      labOpened.1.toOption.any Outcome.isOpened = true := by decide +kernel
  obtain ⟨busy, unheld, opened⟩ := facts
  obtain ⟨pool, reached, shared, program⟩ := reaches_labOpened
  refine ⟨pool, shared ▸ busy, ?_,
    oneChild_of_reaches labHost_uuids labOffice_starts reached (shared ▸ unheld)⟩
  rw [program]
  cases is : labOpened.1 with
  | error raised =>
      rw [is] at opened
      cases opened
  | ok outcome =>
      rw [is] at opened
      cases outcome with
      | opened task lease => exact ⟨task, lease, rfl⟩
      | _ => cases opened

end Subagent

end CarbonLab.Aegis
