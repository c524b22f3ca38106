import CarbonLab.Aegis.Resave
import CarbonLab.Aegis.Subagent
import CarbonLab.Lib.JsonKeyed

/-!
# One child at a time

Whatever commands run side by side, whenever the control lock is free the lease and the
active child of one task name each other, or there is neither.
-/

namespace CarbonLab.Aegis

namespace Subagent

open StateStore

variable {ι : Type} {host : Host}

/-! ## Mutations -/

/-- The task that the files hold. -/
def readTask (host : Host) (disk : TaskDisk) : Option Json :=
  disk.files.state.bind (readJson host.floats)

/-- What a mutation that succeeds did. -/
structure Mutated (host : Host) (id : Text) (disk : TaskDisk) (edit : Edit)
    (allowActiveChild : Bool) (current returned : Json) (after : TaskDisk) : Prop where
  reads : readTask host disk = some current
  valid : Valid host id current
  guarded : allowActiveChild = false → (current.get "active_child").truthy = false
  stores : readTask host after = some returned
  plain : returned.Plain
  validAfter : Valid host id returned
  edits : ∃ edited, edit current.normalize disk.files = .ok edited ∧
    ∀ key ∈ childFields, returned.get? key = edited.1.normalize.get? key
  rests : ∀ edited, edit current.normalize disk.files = .ok edited →
    edited.1.normalize.get? "tdd" = current.normalize.get? "tdd" →
    returned.get? "state" = edited.1.normalize.get? "state" ∧
      ∃ records, Resting host id after returned records

theorem mutated_of_perform {workspace returned : Json} {id : Text} {disk after : TaskDisk}
    {tick : ℕ} {edit : Edit} {expected : Option ℤ} {allowActiveChild : Bool}
    (done : perform host workspace id (host.entropy.now tick) disk
      (.mutate edit expected allowActiveChild) = .ok (returned, after)) :
    ∃ current, Mutated host id disk edit allowActiveChild current returned after := by
  simp only [perform, bind_eq_ok, require_eq_ok, exists_const] at done
  obtain ⟨current, loads, _, _, _, _, guarded, edited, edits, done⟩ := done
  obtain ⟨bytes, state, reads, valid, _⟩ := load_eq_ok.mp loads
  have facts := valid_of_validateTask valid
  have read : readTask host disk = some current := by
    rw [readTask, state, Option.bind_some, reads]
  have saves := done
  rw [saveLocked] at done
  simp only [bind_eq_ok, require_eq_ok, exists_const] at done
  obtain ⟨⟨migrated, stored⟩, prepares, _, _, _, _, _, _, _, is⟩ := done
  cases is
  obtain ⟨updated, checked, records, prepared, storedIs⟩ := prepare_eq_ok prepares
  subst storedIs
  have settled := settled_of_prepared facts prepared
  have touched := prepared.touches.trans
    (@touched_storedTask host current checked ((current.get "revision").int?.getD 0) tick)
  have kept {key : Text} (saved : key ∉ savedFields) (plain : key ∉ migratedFields host) :
      (storedTask host current checked ((current.get "revision").int?.getD 0)
        (host.entropy.now tick)).get? key = edited.1.normalize.get? key := by
    rw [touched.kept key saved, get?_migrate prepared.updates plain]
  refine ⟨current, {
    reads := read
    valid := facts
    guarded := fun refused => ?_
    stores := readJson_fileText settled.plain
    plain := settled.plain
    validAfter := settled.valid
    edits := ⟨edited, edits, fun key member => ?_⟩
    rests := fun edited' edits' tdd => ?_ }⟩
  · rcases guarded with idle | allowed
    · exact Bool.not_eq_true _ ▸ idle
    · rw [refused] at allowed
      cases allowed
  · revert key
    simp only [childFields, List.forall_mem_cons, List.not_mem_nil, false_implies, implies_true,
      and_true]
    exact ⟨kept (by simp [savedFields]) (by simp [migratedFields, migrationDefaults]),
      kept (by simp [savedFields]) (by simp [migratedFields, migrationDefaults])⟩
  · cases edits.symm.trans edits'
    exact ⟨kept (by simp [savedFields]) (by simp [migratedFields, migrationDefaults]),
      resting_of_saveLocked facts tdd saves⟩

/-! ## What is kept -/

/-- The task that is stored under an identifier. -/
def stored (host : Host) (office : Office ι) (id : Text) : Option Json :=
  (office.tasks id).bind (readTask host)

/-- The active child of a task. -/
def childOf (host : Host) (office : Office ι) (id : Text) : Json :=
  ((stored host office id).map (·.get "active_child")).getD .null

/-- The handoffs of a task. -/
def handoffsOf (host : Host) (office : Office ι) (id : Text) : List Json :=
  ((stored host office id).map (itemsUnder · "child_history")).getD []

/-- The entries with a lease identifier. -/
def countOf (entries : List Json) (lease : Text) : ℕ :=
  entries.countP fun entry => entry.get "lease_id" = .str lease

/-- A lease whose child is active in a task, or was handed off there, once. -/
def Tracked (host : Host) (office : Office ι) (id lease : Text) : Prop :=
  countOf (handoffsOf host office id) lease +
    (if (childOf host office id).get "lease_id" = .str lease then 1 else 0) = 1

/-- The files of the task with an active child are those of the save that opened the child. -/
def AtRest (host : Host) (office : Office ι) (id : Text) : Prop :=
  ∃ disk task records, office.tasks id = some disk ∧ readTask host disk = some task ∧
    Resting host id disk task records ∧ inSet (task.get "state") closedStates = .ok false

/-- The lease is the one that a process wrote, and it can be restored. -/
structure Proper (data : Json) : Prop where
  plain : data.Plain
  strings : ∀ key ∈ leaseStrings, ∃ string, data.get key = .str string ∧ string ≠ []
  schema : data.get "schema" = .int 2
  purpose : data.get "purpose" = .str purpose
  object : data.obj?.isSome = true
  bare : data.get? "exists" = none ∧ data.get? "age_seconds" = none

/-- A value that is not null is there. -/
theorem isSome_of_get {data value : Json} {key : Text} (is : data.get key = value)
    (there : value ≠ .null) : (data.get? key).isSome = true := by
  rw [Json.get, Json.getD] at is
  cases found : data.get? key with
  | some value => rfl
  | none =>
      rw [found, Option.getD_none] at is
      exact absurd is.symm there

theorem truthy_of_get {value : Json} {key string : Text} (is : value.get key = .str string) :
    value.truthy = true := by
  cases value with
  | obj fields =>
      cases fields with
      | nil => cases is
      | cons field rest => rfl
  | _ => cases is

theorem Proper.present {data : Json} (proper : Proper data) :
    ∀ key ∈ restorable, (data.get? key).isSome = true := by
  intro key member
  have cases : key ∈ leaseStrings ∨ key = "schema" ∨ key = "purpose" := by
    revert key
    simp [restorable, leaseStrings]
  rcases cases with string | rfl | rfl
  · obtain ⟨value, is, _⟩ := proper.strings key string
    exact isSome_of_get is (by simp)
  · exact isSome_of_get proper.schema (by simp)
  · exact isSome_of_get proper.purpose (by simp)

/-- The lease and the active children agree. -/
structure Agreed (host : Host) (office : Office ι) : Prop where
  idle : office.lease = none → ∀ id, childOf host office id = .null
  busy : ∀ bytes, office.lease = some bytes → ∃ data id,
    readJson host.floats bytes = some data ∧ Proper data ∧ data.get "task_id" = .str id ∧
    childOf host office id ≠ .null ∧
    (childOf host office id).get "lease_id" = data.get "lease_id" ∧
    (childOf host office id).get "role" = data.get "role" ∧
    ∀ other ≠ id, childOf host office other = .null

/-- The contents of a lease: if they are complete, then a child with that lease is its child. -/
def Fits (host : Host) (office : Office ι) (bytes : Bytes) : Prop :=
  ∀ data, readJson host.floats bytes = some data → Proper data ∧
    ∀ id, (childOf host office id).get "lease_id" = data.get "lease_id" →
      data.get "task_id" = .str id ∧ (childOf host office id).get "role" = data.get "role" ∧
        (childOf host office id).get "owner_nonce" = data.get "owner_nonce"

/-- No lease at all, or one that was just created, fits. -/
theorem fits_none {office : Office ι} : ∀ bytes, none = some bytes → Fits host office bytes :=
  fun _ is => by cases is

theorem fits_empty {office : Office ι} :
    ∀ bytes, some ([] : Bytes) = some bytes → Fits host office bytes := by
  intro bytes is data reads
  cases is
  cases reads

/-- What holds whenever no request is being served. -/
structure Sound (host : Host) (office : Office ι) : Prop where
  plain : ∀ id task, stored host office id = some task → task.Plain
  fresh : ∀ id tick, office.ticks ≤ tick →
    (childOf host office id).get "lease_id" ≠ .str (leaseName host tick) ∧
      ∀ entry ∈ handoffsOf host office id, entry.get "lease_id" ≠ .str (leaseName host tick)
  child : ∀ id, childOf host office id ≠ .null → ∃ tick,
    (childOf host office id).get "lease_id" = .str (leaseName host tick) ∧
      Tracked host office id (leaseName host tick)
  handoffs : ∀ id, ∀ entry ∈ handoffsOf host office id, ∀ tick,
    entry.get "lease_id" = .str (leaseName host tick) → entry.get? "handoff_id" = none
  lease : ∀ bytes, office.lease = some bytes → Fits host office bytes
  rests : ∀ id, childOf host office id ≠ .null → AtRest host office id
  free : office.control = none → Agreed host office

/-- Two offices with the same lease and the same children. -/
structure SameChildren (host : Host) (office after : Office ι) : Prop where
  child : ∀ id, childOf host after id = childOf host office id
  handoffs : ∀ id, handoffsOf host after id = handoffsOf host office id
  tasks : ∀ id, childOf host office id ≠ .null → after.tasks id = office.tasks id

/-- No lease is lost, and a lease has one child. -/
structure Tracks (host : Host) (office after : Office ι) : Prop where
  tracked : ∀ id lease, Tracked host office id lease → Tracked host after id lease
  child : ∀ id lease, Tracked host office id lease →
    (childOf host after id).get "lease_id" = .str lease → childOf host office id = childOf host after id

/-- What a process relies on: others keep track of the leases, and everything is left alone
while the process holds the control lock. -/
structure Rely (host : Host) (process : ι) (office after : Office ι) : Prop
    extends Tracks host office after where
  ticks : office.ticks ≤ after.ticks
  control : office.control = some process ↔ after.control = some process
  held : office.control = some process →
    after.lease = office.lease ∧ SameChildren host office after

namespace SameChildren

variable {office middle after : Office ι}

/-- A change of the lease, the lock or the ticks. -/
theorem of_tasks (tasks : after.tasks = office.tasks) : SameChildren host office after := by
  refine ⟨fun id => ?_, fun id => ?_, fun id _ => by rw [tasks]⟩
  · rw [childOf, stored, tasks, childOf, stored]
  · rw [handoffsOf, stored, tasks, handoffsOf, stored]

theorem refl : SameChildren host office office := of_tasks rfl

theorem trans (first : SameChildren host office middle)
    (second : SameChildren host middle after) : SameChildren host office after :=
  ⟨fun id => (second.child id).trans (first.child id),
    fun id => (second.handoffs id).trans (first.handoffs id),
    fun id busy => (second.tasks id (by rwa [first.child])).trans (first.tasks id busy)⟩

theorem tracked (same : SameChildren host office after) {id lease : Text} :
    Tracked host after id lease ↔ Tracked host office id lease := by
  rw [Tracked, same.child, same.handoffs, Tracked]

theorem agreed (same : SameChildren host office after) (lease : after.lease = office.lease)
    (agreed : Agreed host office) : Agreed host after := by
  constructor
  · intro gone id
    rw [same.child, agreed.idle (lease ▸ gone)]
  · intro bytes there
    simp only [same.child]
    exact agreed.busy bytes (lease ▸ there)

theorem fits (same : SameChildren host office after) {bytes : Bytes} :
    Fits host after bytes ↔ Fits host office bytes := by
  simp only [Fits, same.child]

/-- A change of other things. -/
theorem sound (same : SameChildren host office after) (lease : after.lease = office.lease)
    (control : after.control = none → office.control = none) (ticks : office.ticks ≤ after.ticks)
    (plain : ∀ id task, stored host after id = some task → task.Plain)
    (sound : Sound host office) : Sound host after where
  plain := plain
  fresh id tick late := by
    rw [same.child, same.handoffs]
    exact sound.fresh id tick (ticks.trans late)
  child id active := by
    simp only [same.child, same.tracked] at active ⊢
    exact sound.child id active
  handoffs id := by
    rw [same.handoffs]
    exact sound.handoffs id
  lease bytes there := same.fits.mpr (sound.lease bytes (lease ▸ there))
  rests id busy := by
    rw [same.child] at busy
    obtain ⟨disk, task, records, there, rest⟩ := sound.rests id busy
    exact ⟨disk, task, records, (same.tasks id busy).trans there, rest⟩
  free unheld := same.agreed lease (sound.free (control unheld))

end SameChildren

namespace Tracks

variable {office middle after : Office ι}

theorem refl : Tracks host office office := ⟨fun _ _ => id, fun _ _ _ _ => rfl⟩

theorem trans (first : Tracks host office middle) (second : Tracks host middle after) :
    Tracks host office after where
  tracked id lease tracked := second.tracked id lease (first.tracked id lease tracked)
  child id lease tracked active := by
    have here := second.child id lease (first.tracked id lease tracked) active
    exact (first.child id lease tracked (here ▸ active)).trans here

end Tracks

namespace Rely

variable {process : ι} {office middle after : Office ι}

theorem refl : Rely host process office office :=
  ⟨.refl, le_rfl, Iff.rfl, fun _ => ⟨rfl, .refl⟩⟩

theorem trans (first : Rely host process office middle) (second : Rely host process middle after) :
    Rely host process office after where
  toTracks := first.toTracks.trans second.toTracks
  ticks := first.ticks.trans second.ticks
  control := first.control.trans second.control
  held mine := by
    obtain ⟨lease, same⟩ := first.held mine
    obtain ⟨lease', same'⟩ := second.held (first.control.mp mine)
    exact ⟨lease'.trans lease, same.trans same'⟩

end Rely

/-! ## Steps -/

section Steps

variable {process : ι} {office later after : Office ι}

/-- While a process holds the control lock, the others only rely on the tracks. -/
theorem rely_of_held (held : office.control = some process)
    (control : after.control = some process) (ticks : office.ticks ≤ after.ticks)
    (tracks : Tracks host office after) : ∀ other ≠ process, Rely host other office after := by
  intro other differs
  have notHeld : ∀ {state : Office ι}, state.control = some process → state.control ≠ some other := by
    intro state is same
    exact differs (Option.some.inj (same.symm.trans is))
  exact ⟨tracks, ticks, ⟨fun is => absurd is (notHeld held), fun is => absurd is (notHeld control)⟩,
    fun is => absurd is (notHeld held)⟩

/-- A step that changes neither lease, lock nor children. -/
structure Quiet (host : Host) (office after : Office ι) : Prop where
  same : SameChildren host office after
  lease : after.lease = office.lease
  control : after.control = office.control
  ticks : office.ticks ≤ after.ticks
  plain : ∀ id task, stored host after id = some task →
    stored host office id = some task ∨ task.Plain

namespace Quiet

theorem refl : Quiet host office office :=
  ⟨.refl, rfl, rfl, le_rfl, fun _ _ is => Or.inl is⟩

theorem tick : Quiet host office { office with ticks := office.ticks + 1 } :=
  ⟨.of_tasks rfl, rfl, rfl, Nat.le_succ _, fun _ _ is => Or.inl is⟩

theorem rely (quiet : Quiet host office after) (other : ι) : Rely host other office after :=
  ⟨⟨fun _ _ => quiet.same.tracked.mpr, fun id _ _ _ => (quiet.same.child id).symm⟩, quiet.ticks,
    by rw [quiet.control],
    fun _ => ⟨quiet.lease, quiet.same⟩⟩

theorem sound (quiet : Quiet host office after) (sound : Sound host office) : Sound host after :=
  quiet.same.sound quiet.lease (fun unheld => quiet.control ▸ unheld) quiet.ticks
    (fun id task is => (quiet.plain id task is).elim (sound.plain id task) fun plain => plain) sound

end Quiet

/-- A process holds the control lock over a lease; the children are those of another time. -/
structure Holding (host : Host) (process : ι) (base : Office ι) (lease : Option Bytes)
    (office : Office ι) : Prop where
  control : office.control = some process
  lease : office.lease = lease
  same : SameChildren host base office

namespace Holding

variable {base : Office ι} {lease : Option Bytes}

theorem rely (holding : Holding host process base lease office)
    (relies : Rely host process office after) : Holding host process base lease after := by
  obtain ⟨kept, same⟩ := relies.held holding.control
  exact ⟨relies.control.mp holding.control, kept.trans holding.lease, holding.same.trans same⟩

theorem quiet (holding : Holding host process base lease office) (quiet : Quiet host office after) :
    Holding host process base lease after :=
  ⟨quiet.control.trans holding.control, quiet.lease.trans holding.lease,
    holding.same.trans quiet.same⟩

/-- The holder of the lock may change the lease. -/
theorem withLease (holding : Holding host process base lease office) (sound : Sound host office)
    {other : Option Bytes} (fits : ∀ bytes, other = some bytes → Fits host base bytes) :
    Sound host { office with lease := other } ∧
      (∀ process' ≠ process, Rely host process' office { office with lease := other }) ∧
      Holding host process base other { office with lease := other } := by
  refine ⟨⟨sound.plain, sound.fresh, sound.child, sound.handoffs, fun bytes is => ?_, sound.rests,
    fun unheld => ?_⟩, ?_, ⟨holding.control, rfl, holding.same.trans (.of_tasks rfl)⟩⟩
  · exact holding.same.fits.mpr (fits bytes is)
  · cases unheld.symm.trans holding.control
  · exact rely_of_held holding.control holding.control le_rfl ⟨fun _ _ => id, fun _ _ _ _ => rfl⟩

end Holding

variable [DecidableEq ι]

/-- A program of a process among the others. -/
abbrev Secured (host : Host) (process : ι) {α : Type} (program : Command α)
    (post : Except Raised α → Office ι → Prop) (office : Office ι) : Prop :=
  Program.Secures (Serves host) (Sound host) (Rely host) process program post office

variable {α β : Type} {post : Except Raised α → Office ι → Prop}

theorem secured_lift {value : Except Raised β} {next : β → Command α}
    (returns : ∀ result, value = .ok result → Secured host process (next result) post office)
    (raises : ∀ raised, value = .error raised → ∀ later, Rely host process office later →
      Sound host later → post (.error raised) later) :
    Secured host process ((lift value).bind next) post office := by
  cases value with
  | ok result => exact returns result rfl
  | error raised => exact raises raised rfl

/-- A check. -/
theorem secured_require {condition : Prop} [Decidable condition] {error : Raised}
    {next : Unit → Command α}
    (passes : condition → Secured host process (next ()) post office)
    (raises : ∀ later, Rely host process office later → Sound host later →
      post (.error error) later) :
    Secured host process ((lift (require condition error)).bind next) post office := by
  refine secured_lift (fun _ is => passes (require_eq_ok.mp is)) fun raised is => ?_
  rw [require] at is
  split at is
  · cases is
  · cases is
    exact raises

/-- A check that passes. -/
theorem secured_passed {condition : Prop} [Decidable condition] {error : Raised}
    {next : Unit → Command α} (holds : condition)
    (passes : Secured host process (next ()) post office) :
    Secured host process ((lift (require condition error)).bind next) post office := by
  rw [require, if_pos holds]
  exact passes

theorem secured_loadTask {task : Option Text} {next : Json → Command α}
    (raises : ∀ raised later, Rely host process office later → post (.error raised) later)
    (returns : ∀ later id loaded, Rely host process office later → Sound host later →
      (∀ given, task = some given → id = given) → stored host later id = some loaded →
      Valid host id loaded → Secured host process (next loaded) post later) :
    Secured host process ((loadTask task).bind next) post office := by
  intro later relies sound answer after served
  have kept : after = later ∧ ∀ loaded, answer = .ok loaded → ∃ id workspace disk,
      (∀ given, task = some given → id = given) ∧ later.tasks id = some disk ∧
        StateStore.load host workspace id disk = .ok loaded := by
    rcases served with ⟨workspace, is⟩ | ⟨⟨raised, is⟩, rfl⟩
    · rw [serve] at is
      obtain ⟨answers, rfl⟩ := Prod.mk.inj is
      refine ⟨rfl, fun loaded done => ?_⟩
      rw [← answers] at done
      split at done
      · cases done
      · next id found =>
          split at done
          · cases done
          · next disk there =>
              refine ⟨id, workspace, disk, fun given is => ?_, there, done⟩
              rw [is, Option.some_or] at found
              exact (Option.some.inj found).symm
    · exact ⟨rfl, fun loaded done => by rw [is] at done; cases done⟩
  obtain ⟨rfl, loads⟩ := kept
  refine ⟨sound, fun other _ => .refl, ?_⟩
  refine secured_lift (fun loaded is => ?_) fun raised _ later' relies' _ =>
    raises raised later' (relies.trans relies')
  obtain ⟨id, workspace, disk, given, there, done⟩ := loads loaded is
  obtain ⟨bytes, state, reads, valid, _⟩ := load_eq_ok.mp done
  refine returns after id loaded relies sound given ?_ (valid_of_validateTask valid)
  rw [stored, there, Option.bind_some, readTask, state, Option.bind_some, reads]

theorem secured_loadEvidence {id : Text} {next : List Json → Command α}
    (raises : ∀ raised later, Rely host process office later → post (.error raised) later)
    (returns : ∀ later records, Rely host process office later → Sound host later →
      Secured host process (next records) post later) :
    Secured host process ((loadEvidence id).bind next) post office := by
  intro later relies sound answer after served
  have kept : after = later := by
    rcases served with ⟨workspace, is⟩ | ⟨_, rfl⟩
    · exact (Prod.mk.inj is).2.symm
    · rfl
  subst kept
  refine ⟨sound, fun other _ => .refl, ?_⟩
  exact secured_lift (fun records _ => returns after records relies sound) fun raised _ later' relies' _ =>
    raises raised later' (relies.trans relies')

theorem secured_inspect {next : Inspection → Command α}
    (returns : ∀ later, Rely host process office later → Sound host later →
      Secured host process (next (inspectContents host later.lease)) post later) :
    Secured host process ((inspect host).bind next) post office := by
  intro later relies sound answer after served
  rcases served with ⟨workspace, is⟩ | ⟨fails, _⟩
  · rw [serve] at is
    obtain ⟨rfl, rfl⟩ := Prod.mk.inj is
    exact ⟨sound, fun other _ => .refl, returns later relies sound⟩
  · cases fails

theorem secured_uuid {next : Text → Command α}
    (returns : ∀ later, Rely host process office later → Sound host later →
      Secured host process (next (host.entropy.uuid later.ticks)) post
        { later with ticks := later.ticks + 1 }) :
    Secured host process (uuid.bind next) post office := by
  intro later relies sound answer after served
  rcases served with ⟨workspace, is⟩ | ⟨fails, _⟩
  · rw [serve] at is
    obtain ⟨rfl, rfl⟩ := Prod.mk.inj is
    exact ⟨Quiet.tick.sound sound, fun other _ => Quiet.tick.rely other, returns later relies sound⟩
  · cases fails

theorem secured_now {next : Text → Command α}
    (returns : ∀ later tick, Rely host process office later → Sound host later →
      Secured host process (next (host.entropy.now tick)) post
        { later with ticks := later.ticks + 1 }) :
    Secured host process (now.bind next) post office := by
  intro later relies sound answer after served
  rcases served with ⟨workspace, is⟩ | ⟨fails, _⟩
  · rw [serve] at is
    obtain ⟨rfl, rfl⟩ := Prod.mk.inj is
    exact ⟨Quiet.tick.sound sound, fun other _ => Quiet.tick.rely other,
      returns later later.ticks relies sound⟩
  · cases fails

end Steps

/-! ## Edited tasks -/

/-- A key that is not there need not be taken out. -/
theorem erase_of_absent {value : Json} {key : Text} (absent : value.get? key = none) :
    value.erase key = value := by
  cases value with
  | obj fields =>
      rw [Json.erase, Fields.erase, List.filter_eq_self.mpr]
      replace absent : Fields.get? key fields = none := absent
      induction fields with
      | nil => simp
      | cons field rest ih =>
          rw [Fields.get?] at absent
          split at absent
          · cases absent
          · next differs => exact List.forall_mem_cons.mpr ⟨decide_eq_true differs, ih absent⟩
  | _ => rfl

/-- A dictionary with its keys in order. -/
def Neat (value : Json) : Prop := ∃ fields, value = .obj fields ∧ Fields.Ordered fields

namespace Neat

variable {value : Json}

theorem of_plain (plain : value.Plain) (object : value.obj?.isSome = true) : Neat value := by
  obtain ⟨fields, is⟩ := Option.isSome_iff_exists.mp object
  rw [Json.obj?_eq_some] at is
  subst is
  exact ⟨fields, rfl, plain.field.1⟩

theorem ofPairs (pairs : List (Text × Json)) : Neat (.obj (Fields.ofPairs pairs)) :=
  ⟨_, rfl, Fields.ordered_ofPairs pairs⟩

theorem set (neat : Neat value) (key : Text) (item : Json) : Neat (value.set key item) := by
  obtain ⟨fields, rfl, ordered⟩ := neat
  exact ⟨_, rfl, ordered.set⟩

theorem object (neat : Neat value) : value.obj?.isSome = true := by
  obtain ⟨fields, rfl, _⟩ := neat
  rfl

theorem get?_normalize (neat : Neat value) {key : Text} (ascii : ∀ letter ∈ key, letter.val < 128) :
    value.normalize.get? key = (value.get? key).map Json.normalize := by
  obtain ⟨fields, rfl, ordered⟩ := neat
  exact get?_normalize_of_ordered ordered ascii

/-- What stands under a key that was set. -/
theorem get?_normalize_set (neat : Neat value) {key : Text}
    (ascii : ∀ letter ∈ key, letter.val < 128) (item : Json) :
    (value.set key item).normalize.get? key = some item.normalize := by
  rw [(neat.set key item).get?_normalize ascii, Json.get?_set neat.object, if_pos rfl,
    Option.map_some]

end Neat

theorem leaseName_ascii (tick : ℕ) : ∀ letter ∈ leaseName host tick, letter.val < 128 := by
  intro letter member
  rcases List.mem_append.mp member with here | there
  · have all : ∀ letter ∈ text "L-", letter.val < 128 := by simp [text]
    exact all letter here
  · exact host.uuid_ascii tick letter there

theorem plain_leaseName (tick : ℕ) : (Json.str (leaseName host tick)).Plain :=
  Json.plain_str.mpr (mergeSurrogates_ascii (leaseName_ascii tick))

/-- An edit that hands off the child with a lease. -/
def HandsOff (edit : Edit) (lease : Text) : Prop :=
  ∀ task files edited, Neat task → edit task files = .ok edited → ∃ items handoff,
    task.getD "child_history" (.arr []) = .arr items ∧
    edited.1.normalize.get? "active_child" = some .null ∧
    edited.1.normalize.get? "child_history" =
      some (.arr (items.map Json.normalize ++ [handoff])) ∧
    handoff.get "lease_id" = .str lease ∧ handoff.get? "handoff_id" = none

theorem handOff_eq_ok {task handoff edited : Json} (done : handOff task handoff = .ok edited) :
    ∃ items, task.getD "child_history" (.arr []) = .arr items ∧
      edited = (task.set "child_history" (.arr (items ++ [handoff]))).set "active_child" .null := by
  rw [handOff] at done
  split at done
  · next items is =>
      cases done
      exact ⟨items, is, rfl⟩
  · cases done

/-- A task after a handoff and a change of another field. -/
theorem handsOff_of_edited {task handoff edited : Json} {lease : Text} (key : Text)
    (value : Json) (neat : Neat task) (done : handOff task handoff = .ok edited) (handoffNeat : Neat handoff)
    (leaseIs : handoff.get? "lease_id" = some (.str lease)) (plain : (Json.str lease).Plain)
    (unnamed : handoff.get? "handoff_id" = none) (other : key ∉ childFields) :
    ∃ items, task.getD "child_history" (.arr []) = .arr items ∧
      (edited.set key value).normalize.get? "active_child" = some .null ∧
      (edited.set key value).normalize.get? "child_history" =
        some (.arr (items.map Json.normalize ++ [handoff.normalize])) ∧
      handoff.normalize.get "lease_id" = .str lease ∧
      handoff.normalize.get? "handoff_id" = none := by
  obtain ⟨items, itemsIs, rfl⟩ := handOff_eq_ok done
  simp only [childFields, List.mem_cons, List.not_mem_nil, or_false, not_or] at other
  have listed := neat.set "child_history" (.arr (items ++ [handoff]))
  have cleared := listed.set "active_child" .null
  have object := cleared.object
  refine ⟨items, itemsIs, ?_, ?_, ?_, ?_⟩
  · rw [(cleared.set key value).get?_normalize (by simp [text]), Json.get?_set_of_ne _ other.1,
      Json.get?_set listed.object, if_pos rfl]
    rfl
  · rw [(cleared.set key value).get?_normalize (by simp [text]), Json.get?_set_of_ne _ other.2,
      Json.get?_set_of_ne _ (by simp), Json.get?_set neat.object, if_pos rfl, Option.map_some,
      Json.normalize, Json.normalizeItems_eq_map, List.map_append, List.map_singleton]
  · rw [Json.get, Json.getD, handoffNeat.get?_normalize (by simp [text]), leaseIs, Option.map_some,
      Option.getD_some]
    exact plain
  · rw [handoffNeat.get?_normalize (by simp [text]), unnamed]
    rfl

theorem closeEdit_handsOff {child : Json} {closed outcome summary : Text} {evidence : List Text}
    {tick : ℕ} (leaseIs : child.get? "lease_id" = some (.str (leaseName host tick))) :
    HandsOff (closeEdit child closed outcome summary evidence) (leaseName host tick) := by
  intro task files edited neat done
  simp only [closeEdit, bind_eq_ok] at done
  obtain ⟨role, _, lease, leaseFound, opened, _, handed, done, is⟩ := done
  cases is
  cases leaseIs.symm.trans (item_eq_ok.mp leaseFound)
  obtain ⟨items, facts⟩ := handsOff_of_edited "final_audit_complete" (.bool false) neat done
    (Neat.ofPairs _) (Fields.get?_ofPairs (by simp) (by simp)) (@plain_leaseName host tick)
    (Fields.get?_ofPairs_eq_none (by simp)) (by simp [childFields])
  exact ⟨items, _, facts⟩

theorem recoverEdit_handsOff {observe : Observe} {child : Json} {closed reason : Text} {tick : ℕ}
    (leaseIs : child.get? "lease_id" = some (.str (leaseName host tick))) :
    HandsOff (recoverEdit observe child closed reason) (leaseName host tick) := by
  intro task files edited neat done
  simp only [recoverEdit, bind_eq_ok] at done
  obtain ⟨record, _, role, _, lease, leaseFound, opened, _, id, _, handed, done, head, _, is⟩ := done
  cases is
  cases leaseIs.symm.trans (item_eq_ok.mp leaseFound)
  obtain ⟨items, facts⟩ := handsOff_of_edited "evidence_head" head neat done
    (Neat.ofPairs _) (Fields.get?_ofPairs (by simp) (by simp)) (@plain_leaseName host tick)
    (Fields.get?_ofPairs_eq_none (by simp)) (by simp [childFields])
  exact ⟨items, _, facts⟩

/-! ## Tasks in the store -/

/-- A valid task has handoffs, no two of them with the same identifier. -/
theorem valid_handoffs {id : Text} {task : Json} (valid : Valid host id task) :
    ∃ entries, task.get? "child_history" = some (.arr entries) ∧
      allDistinct (entries.map TaskSchema.handoffId) = true := by
  have lists := valid.lists
  simp only [TaskSchema.validateLists, bind_eq_ok, require_eq_ok, exists_const] at lists
  obtain ⟨_, _, _, _, _, _, entries, listed, _, _, _, _, _, _, _, _, _, _, ids, idsIs, _,
    distinct_, rfl, _⟩ := lists
  obtain ⟨_, _, apart⟩ := bind_eq_ok.mp distinct_
  have same : ids = entries.map TaskSchema.handoffId := by
    refine eq_map_of_mapM (fun entry result here => ?_) idsIs
    obtain ⟨lease, fetched, found⟩ := bind_eq_ok.mp here
    obtain ⟨_, rfl⟩ := fetch_eq_ok.mp fetched
    exact (fetchD_eq_ok.mp found).2.symm
  refine ⟨entries, requireList_eq_ok listed, ?_⟩
  rw [← same]
  exact Except.ok.inj apart

section Stores

variable {process : ι} {office after : Office ι} {id : Text} {disk disk' : TaskDisk}
  {edit : Edit} {allowActiveChild : Bool} {current returned : Json}

theorem stored_update {task : Json}
    (tasks : after.tasks = Function.update office.tasks id (some disk'))
    (reads : readTask host disk' = some task) (other : Text) :
    stored host after other = if other = id then some task else stored host office other := by
  rw [stored, tasks]
  by_cases same : other = id
  · subst same
    rw [Function.update_self, Option.bind_some, reads, if_pos rfl]
  · rw [Function.update_of_ne same, if_neg same]
    rfl

theorem childOf_update {task : Json}
    (tasks : after.tasks = Function.update office.tasks id (some disk'))
    (reads : readTask host disk' = some task) (other : Text) :
    childOf host after other =
      if other = id then task.get "active_child" else childOf host office other := by
  rw [childOf, stored_update tasks reads, apply_ite (fun task : Option Json =>
    (task.map (·.get "active_child")).getD .null)]
  rfl

theorem handoffsOf_update {task : Json}
    (tasks : after.tasks = Function.update office.tasks id (some disk'))
    (reads : readTask host disk' = some task) (other : Text) :
    handoffsOf host after other =
      if other = id then itemsUnder task "child_history" else handoffsOf host office other := by
  rw [handoffsOf, stored_update tasks reads, apply_ite (fun task : Option Json =>
    (task.map (itemsUnder · "child_history")).getD [])]
  rfl

/-- The fields of a task that is read. -/
theorem views_of_stored {task : Json} (is : stored host office id = some task) :
    childOf host office id = task.get "active_child" ∧
      handoffsOf host office id = itemsUnder task "child_history" := by
  rw [childOf, handoffsOf, is]
  exact ⟨rfl, rfl⟩

namespace Mutated

theorem stored_ (mutated : Mutated host id disk edit allowActiveChild current returned disk')
    (there : office.tasks id = some disk) : stored host office id = some current := by
  rw [stored, there, Option.bind_some, mutated.reads]

theorem plain_ (mutated : Mutated host id disk edit allowActiveChild current returned disk')
    (sound : Sound host office)
    (tasks : after.tasks = Function.update office.tasks id (some disk')) :
    ∀ other task, stored host after other = some task → task.Plain := by
  intro other task is
  rw [stored_update tasks mutated.stores] at is
  split at is
  · cases is
    exact mutated.plain
  · exact sound.plain other task is

/-- The other commands change no child. -/
theorem quiet (mutated : Mutated host id disk edit allowActiveChild current returned disk')
    (sound : Sound host office) (there : office.tasks id = some disk) (spares : SparesChild edit)
    (refused : allowActiveChild = false)
    (tasks : after.tasks = Function.update office.tasks id (some disk'))
    (lease : after.lease = office.lease) (control : after.control = office.control)
    (ticks : office.ticks ≤ after.ticks) : Quiet host office after := by
  have here := mutated.stored_ there
  obtain ⟨edited, edits, kept⟩ := mutated.edits
  have same : ∀ key ∈ childFields, returned.get? key = current.get? key := by
    intro key member
    rw [kept key member, spares _ _ _ edits key member, Json.normalize_idem, sound.plain id _ here]
  refine ⟨⟨fun other => ?_, fun other => ?_, fun other busy => ?_⟩, lease, control, ticks,
    fun other task is => ?_⟩
  · rw [childOf_update tasks mutated.stores]
    split
    · next is =>
        rw [is, (views_of_stored here).1, Json.get, Json.getD, same _ (by simp [childFields])]
        rfl
    · rfl
  · rw [handoffsOf_update tasks mutated.stores]
    split
    · next is =>
        rw [is, (views_of_stored here).2, itemsUnder, listD, Json.getD,
          same _ (by simp [childFields])]
        rfl
    · rfl
  · rw [tasks, Function.update_of_ne]
    rintro rfl
    obtain ⟨tick, leaseIs, _⟩ := sound.child other busy
    rw [(views_of_stored here).1] at leaseIs
    cases (mutated.guarded refused).symm.trans (truthy_of_get leaseIs)
  · exact Or.inr (mutated.plain_ sound tasks other task is)

end Mutated

end Stores

theorem null_get_ne {key string : Text} : Json.null.get key ≠ .str string := by
  rintro ⟨⟩

/-- A list with no entry of a lease. -/
theorem countOf_eq_zero {entries : List Json} {lease : Text} :
    countOf entries lease = 0 ↔ ∀ entry ∈ entries, entry.get "lease_id" ≠ .str lease := by
  rw [countOf, List.countP_eq_zero]
  simp only [decide_eq_true_eq, ne_eq]

theorem countOf_concat {entries : List Json} {entry : Json} {lease : Text} :
    countOf (entries ++ [entry]) lease =
      countOf entries lease + if entry.get "lease_id" = .str lease then 1 else 0 := by
  rw [countOf, List.countP_append, List.countP_singleton, countOf]
  simp only [decide_eq_true_eq]

/-! ## One task -/

section Stores

variable {process : ι} {office after : Office ι} {id : Text} {disk disk' : TaskDisk}
  {edit : Edit} {allowActiveChild : Bool} {current returned : Json} {tick : ℕ}

/-- One task has another child and other handoffs; the other tasks are left alone. -/
structure Replaces (host : Host) (office after : Office ι) (id : Text) (child : Json)
    (entries : List Json) : Prop where
  child : ∀ other, childOf host after other =
    if other = id then child else childOf host office other
  handoffs : ∀ other, handoffsOf host after other =
    if other = id then entries else handoffsOf host office other
  tasks : ∀ other ≠ id, after.tasks other = office.tasks other

theorem Mutated.replaces
    (mutated : Mutated host id disk edit allowActiveChild current returned disk')
    (tasks : after.tasks = Function.update office.tasks id (some disk')) :
    Replaces host office after id (returned.get "active_child")
      (itemsUnder returned "child_history") :=
  ⟨childOf_update tasks mutated.stores, handoffsOf_update tasks mutated.stores,
    fun other differs => by rw [tasks, Function.update_of_ne differs]⟩

namespace Replaces

variable {child : Json} {entries : List Json}

theorem tracked_other (replaces : Replaces host office after id child entries) {other lease : Text}
    (differs : other ≠ id) : Tracked host after other lease ↔ Tracked host office other lease := by
  rw [Tracked, replaces.child, replaces.handoffs, if_neg differs, if_neg differs, Tracked]

/-- The tasks with an active child are at rest when the one that changed is. -/
theorem rests (replaces : Replaces host office after id child entries) (sound : Sound host office)
    (here : child ≠ .null → AtRest host after id) :
    ∀ other, childOf host after other ≠ .null → AtRest host after other := by
  intro other busy
  rw [replaces.child] at busy
  by_cases same : other = id
  · subst same
    exact here (by rwa [if_pos rfl] at busy)
  · rw [if_neg same] at busy
    obtain ⟨disk, task, records, there, rest⟩ := sound.rests other busy
    exact ⟨disk, task, records, (replaces.tasks other same).trans there, rest⟩

end Replaces

/-! ### Handoffs -/

/-- What a handoff leaves in a task. -/
theorem Mutated.handedTask
    (mutated : Mutated host id disk edit allowActiveChild current returned disk')
    (plain : current.Plain) (handsOff : HandsOff edit (leaseName host tick)) :
    ∃ handoff, returned.get "active_child" = .null ∧
      itemsUnder returned "child_history" = itemsUnder current "child_history" ++ [handoff] ∧
      handoff.get "lease_id" = .str (leaseName host tick) ∧ handoff.get? "handoff_id" = none := by
  obtain ⟨edited, edits, kept⟩ := mutated.edits
  rw [plain] at edits
  obtain ⟨items, handoff, itemsIs, activeIs, historyIs, leaseIs, unnamed⟩ :=
    handsOff current _ edited (Neat.of_plain plain mutated.valid.object) edits
  obtain ⟨entries, listed, _⟩ := valid_handoffs mutated.valid
  rw [Json.getD, listed, Option.getD_some, Json.arr.injEq] at itemsIs
  subst itemsIs
  have itemsPlain : entries.map Json.normalize = entries := by
    refine (List.map_congr_left fun entry member => ?_).trans (List.map_id entries)
    exact (Json.Plain.get? plain listed).item entry member
  rw [itemsPlain, ← kept _ (by simp [childFields])] at historyIs
  rw [← kept _ (by simp [childFields])] at activeIs
  refine ⟨handoff, get_of_get? activeIs, ?_, leaseIs, unnamed⟩
  rw [itemsUnder_eq historyIs, itemsUnder_eq listed]

/-- The last handoff of a task has an identifier of its own. -/
theorem handoffId_ne_of_concat {task handoff : Json} {entries : List Json}
    (valid : Valid host id task) (listed : itemsUnder task "child_history" = entries ++ [handoff]) :
    ∀ entry ∈ entries, TaskSchema.handoffId entry ≠ TaskSchema.handoffId handoff := by
  intro entry member same
  obtain ⟨entries', listed', apart⟩ := valid_handoffs valid
  rw [itemsUnder_eq listed'] at listed
  subst listed
  rw [allDistinct_iff, List.map_append, List.pairwise_append] at apart
  have differs := apart.2.2 _ (List.mem_map_of_mem member) _ (List.mem_map_of_mem
    (List.mem_singleton.mpr rfl))
  rw [same] at differs
  exact differs (Json.alike_self _)

/-- The identifier of a handoff without one of its own is that of its lease. -/
theorem handoffId_of_unnamed {handoff : Json} {lease : Text}
    (unnamed : handoff.get? "handoff_id" = none) (leaseIs : handoff.get "lease_id" = .str lease) :
    TaskSchema.handoffId handoff = .str lease := by
  rw [TaskSchema.handoffId, Json.getD, unnamed, Option.getD_none, leaseIs]

/-- A lease that was handed off before would be there twice. -/
theorem countOf_handed {task handoff : Json} {entries : List Json} {lease : Text}
    (valid : Valid host id task)
    (listed : itemsUnder task "child_history" = entries ++ [handoff])
    (unnamed : ∀ entry ∈ entries ++ [handoff], entry.get "lease_id" = .str lease →
      entry.get? "handoff_id" = none)
    (leaseIs : handoff.get "lease_id" = .str lease) : countOf entries lease = 0 := by
  rw [countOf_eq_zero]
  intro entry member same
  apply handoffId_ne_of_concat valid listed entry member
  rw [handoffId_of_unnamed (unnamed entry (List.mem_append_left _ member) same) same,
    handoffId_of_unnamed (unnamed handoff (by simp) leaseIs) leaseIs]

/-- The lease of a child that was handed off stays tracked, and so do the others. -/
theorem Replaces.tracks_handed {handoff : Json}
    (replaces : Replaces host office after id .null (handoffsOf host office id ++ [handoff]))
    (leaseIs : handoff.get "lease_id" = (childOf host office id).get "lease_id") :
    Tracks host office after where
  tracked other lease tracks := by
    by_cases same : other = id
    · subst same
      rw [Tracked] at tracks
      rw [Tracked, replaces.child, replaces.handoffs, if_pos rfl, if_pos rfl, countOf_concat,
        leaseIs, if_neg null_get_ne, Nat.add_zero]
      exact tracks
    · exact (replaces.tracked_other same).mpr tracks
  child other lease _ is := by
    rw [replaces.child] at is ⊢
    by_cases same : other = id
    · rw [if_pos same] at is
      exact absurd is null_get_ne
    · rw [if_neg same]

/-- What holds still holds after a handoff. -/
theorem Replaces.sound_handed {handoff : Json}
    (replaces : Replaces host office after id .null (handoffsOf host office id ++ [handoff]))
    (leaseIs : handoff.get "lease_id" = (childOf host office id).get "lease_id")
    (unnamed : handoff.get? "handoff_id" = none) (sound : Sound host office)
    (plain : ∀ other task, stored host after other = some task → task.Plain)
    (lease : after.lease = office.lease) (control : after.control = some process)
    (ticks : office.ticks ≤ after.ticks) : Sound host after where
  plain := plain
  fresh other late after_ := by
    have fresh := sound.fresh other late (ticks.trans after_)
    rw [replaces.child, replaces.handoffs]
    by_cases same : other = id
    · subst same
      rw [if_pos rfl, if_pos rfl]
      refine ⟨null_get_ne, fun entry member => ?_⟩
      rcases List.mem_append.mp member with old | new
      · exact fresh.2 entry old
      · rw [List.mem_singleton.mp new, leaseIs]
        exact fresh.1
    · rw [if_neg same, if_neg same]
      exact fresh
  child other busy := by
    rw [replaces.child] at busy ⊢
    by_cases same : other = id
    · rw [if_pos same] at busy
      exact absurd rfl busy
    · rw [if_neg same] at busy ⊢
      obtain ⟨tick, leaseIs', tracked⟩ := sound.child other busy
      exact ⟨tick, leaseIs', (replaces.tracked_other same).mpr tracked⟩
  handoffs other entry member tick is := by
    rw [replaces.handoffs] at member
    by_cases same : other = id
    · subst same
      rw [if_pos rfl] at member
      rcases List.mem_append.mp member with old | new
      · exact sound.handoffs other entry old tick is
      · rw [List.mem_singleton.mp new]
        exact unnamed
    · rw [if_neg same] at member
      exact sound.handoffs other entry member tick is
  lease bytes there data reads := by
    obtain ⟨proper, fits⟩ := sound.lease bytes (lease ▸ there) data reads
    refine ⟨proper, fun other is => ?_⟩
    obtain ⟨name, nameIs, _⟩ := proper.strings "lease_id" (by simp [leaseStrings])
    rw [replaces.child] at is ⊢
    by_cases same : other = id
    · rw [if_pos same, nameIs] at is
      exact absurd is null_get_ne
    · rw [if_neg same] at is ⊢
      exact fits other is
  rests := replaces.rests sound fun busy => absurd rfl busy
  free unheld := by cases unheld.symm.trans control

/-- A handoff of a lease that is tracked: its child was the active one, and is so no more. -/
theorem Mutated.handed
    (mutated : Mutated host id disk edit allowActiveChild current returned disk')
    (sound : Sound host office) (there : office.tasks id = some disk)
    (handsOff : HandsOff edit (leaseName host tick))
    (tracked : Tracked host office id (leaseName host tick))
    (tasks : after.tasks = Function.update office.tasks id (some disk'))
    (lease : after.lease = office.lease) (held : office.control = some process)
    (control : after.control = some process) (ticks : office.ticks ≤ after.ticks) :
    Sound host after ∧ (∀ other ≠ process, Rely host other office after) ∧
      (childOf host office id).get "lease_id" = .str (leaseName host tick) ∧
      ∀ other, childOf host after other = if other = id then .null else childOf host office other := by
  have here := mutated.stored_ there
  obtain ⟨handoff, cleared, later, leaseIs, unnamed⟩ :=
    mutated.handedTask (sound.plain id current here) handsOff
  have replaces := mutated.replaces tasks
  rw [cleared, later, ← (views_of_stored here).2] at replaces
  have names : ∀ entry ∈ handoffsOf host office id ++ [handoff],
      entry.get "lease_id" = .str (leaseName host tick) → entry.get? "handoff_id" = none := by
    intro entry member is
    rcases List.mem_append.mp member with old | new
    · exact sound.handoffs id entry old tick is
    · rw [List.mem_singleton.mp new]
      exact unnamed
  have absent := countOf_handed mutated.validAfter (by rw [later, ← (views_of_stored here).2])
    names leaseIs
  have active : (childOf host office id).get "lease_id" = .str (leaseName host tick) := by
    rw [Tracked, absent, Nat.zero_add] at tracked
    by_contra other
    rw [if_neg other] at tracked
    cases tracked
  have same := leaseIs.trans active.symm
  exact ⟨replaces.sound_handed same unnamed sound (mutated.plain_ sound tasks) lease control ticks,
    rely_of_held held control ticks (replaces.tracks_handed same), active, replaces.child⟩

/-! ### Openings -/

theorem get_newChild_lease {role opened : Text} {lease brief : Json}
    (leaseIs : lease.get "lease_id" = .str (leaseName host tick)) :
    (newChild host role opened lease brief).normalize.get "lease_id" =
      .str (leaseName host tick) := by
  rw [newChild, Json.get_normalize_ofPairs (lease.get "lease_id") (by simp) (by simp) (by simp),
    leaseIs]
  exact plain_leaseName tick

theorem get_newChild_nonce {role opened : Text} {lease brief nonce : Json}
    (nonceIs : lease.get "owner_nonce" = nonce) (plain : nonce.Plain) :
    (newChild host role opened lease brief).normalize.get "owner_nonce" = nonce := by
  rw [newChild, Json.get_normalize_ofPairs (lease.get "owner_nonce") (by simp) (by simp) (by simp),
    nonceIs, plain]

theorem get_newChild_role {role opened : Text} {lease brief : Json}
    (rolePlain : (Json.str role).Plain) :
    (newChild host role opened lease brief).normalize.get "role" = .str role := by
  rw [newChild, Json.get_normalize_ofPairs (.str role) (by simp) (by simp) (by simp), rolePlain]

/-- What an opening leaves in a task. -/
theorem Mutated.openedTask {role opened : Text} {lease brief : Json}
    (mutated : Mutated host id disk (openEdit host role opened lease brief) allowActiveChild current
      returned disk') (plain : current.Plain) :
    returned.get "active_child" = (newChild host role opened lease brief).normalize ∧
      itemsUnder returned "child_history" = itemsUnder current "child_history" ∧
      inSet (returned.get "state") closedStates = .ok false ∧
      ∃ records, Resting host id disk' returned records := by
  have neat := Neat.of_plain plain mutated.valid.object
  obtain ⟨edited, edits, kept⟩ := mutated.edits
  have rests := mutated.rests edited edits
  rw [plain] at edits rests
  simp only [openEdit, bind_eq_ok, require_eq_ok, exists_const] at edits
  obtain ⟨closed, known, open_, _, is⟩ := edits
  cases is
  have named := neat.set "active_child" (newChild host role opened lease brief)
  have same {key : Text} (ascii : ∀ letter ∈ key, letter.val < 128)
      (audited : text "final_audit_complete" ≠ key) (active : text "active_child" ≠ key) :
      ((current.set "active_child" (newChild host role opened lease brief)).set
        "final_audit_complete" (.bool false)).normalize.get? key = current.get? key := by
    rw [(named.set _ _).get?_normalize ascii, Json.get?_set_of_ne _ audited,
      Json.get?_set_of_ne _ active, ← neat.get?_normalize ascii, plain]
  obtain ⟨stateIs, resting⟩ := rests (same (by simp [text]) (by simp) (by simp))
  refine ⟨get_of_get? ?_, ?_, ?_, resting⟩
  · rw [kept _ (by simp [childFields]), (named.set _ _).get?_normalize (by simp [text]),
      Json.get?_set_of_ne _ (by simp), Json.get?_set neat.object, if_pos rfl, Option.map_some]
  · rw [itemsUnder, listD, Json.getD, kept _ (by simp [childFields]),
      same (by simp [text]) (by simp) (by simp)]
    rfl
  · rw [Json.get, Json.getD, stateIs, same (by simp [text]) (by simp) (by simp), ← Json.getD,
      ← Json.get, known]
    exact congrArg Except.ok (Bool.not_eq_true _ ▸ open_)

/-- The lease of a new child is tracked, and the others stay tracked. -/
theorem Replaces.tracks_opened {child : Json} {name : Text}
    (replaces : Replaces host office after id child (handoffsOf host office id))
    (idle : childOf host office id = .null) (leaseIs : child.get "lease_id" = .str name)
    (absent : countOf (handoffsOf host office id) name = 0) :
    Tracks host office after ∧ Tracked host after id name := by
  have missing {lease : Text} (tracks : Tracked host office id lease) : name ≠ lease := by
    rintro rfl
    rw [Tracked, idle, if_neg null_get_ne, absent] at tracks
    cases tracks
  refine ⟨⟨fun other lease tracks => ?_, fun other lease tracks is => ?_⟩, ?_⟩
  · by_cases same : other = id
    · subst same
      have differs := missing tracks
      rw [Tracked, idle, if_neg null_get_ne, Nat.add_zero] at tracks
      rw [Tracked, replaces.child, replaces.handoffs, if_pos rfl, if_pos rfl, leaseIs, tracks,
        if_neg (by simpa using differs)]
    · exact (replaces.tracked_other same).mpr tracks
  · rw [replaces.child] at is ⊢
    by_cases same : other = id
    · subst same
      rw [if_pos rfl, leaseIs, Json.str.injEq] at is
      exact absurd is (missing tracks)
    · rw [if_neg same]
  · rw [Tracked, replaces.child, replaces.handoffs, if_pos rfl, if_pos rfl, absent, leaseIs,
      if_pos rfl]

/-- What holds still holds after a child was opened. -/
theorem Replaces.sound_opened {child : Json}
    (replaces : Replaces host office after id child (handoffsOf host office id))
    (tracks : Tracks host office after ∧ Tracked host after id (leaseName host tick))
    (leaseIs : child.get "lease_id" = .str (leaseName host tick)) (sound : Sound host office)
    (unique : Function.Injective host.entropy.uuid) (early : tick < after.ticks)
    (matches_ : ∀ bytes data, office.lease = some bytes → readJson host.floats bytes = some data →
      data.get "task_id" = .str id ∧ child.get "role" = data.get "role" ∧
        child.get "owner_nonce" = data.get "owner_nonce")
    (rests : AtRest host after id)
    (plain : ∀ other task, stored host after other = some task → task.Plain)
    (lease : after.lease = office.lease) (control : after.control = some process)
    (ticks : office.ticks ≤ after.ticks) : Sound host after where
  plain := plain
  fresh other late after_ := by
    have fresh := sound.fresh other late (ticks.trans after_)
    rw [replaces.child, replaces.handoffs]
    by_cases same : other = id
    · subst same
      rw [if_pos rfl, if_pos rfl, leaseIs]
      refine ⟨fun equal => ?_, fresh.2⟩
      have tickIs := unique (List.append_cancel_left (Json.str.inj equal))
      omega
    · rw [if_neg same, if_neg same]
      exact fresh
  child other busy := by
    rw [replaces.child] at busy ⊢
    by_cases same : other = id
    · subst same
      rw [if_pos rfl]
      exact ⟨tick, leaseIs, tracks.2⟩
    · rw [if_neg same] at busy ⊢
      obtain ⟨tick', leaseIs', tracked⟩ := sound.child other busy
      exact ⟨tick', leaseIs', tracks.1.tracked _ _ tracked⟩
  handoffs other entry member := by
    refine sound.handoffs other entry ?_
    rw [replaces.handoffs] at member
    split at member
    · next same => rwa [same]
    · exact member
  lease bytes there data reads := by
    obtain ⟨proper, fits⟩ := sound.lease bytes (lease ▸ there) data reads
    refine ⟨proper, fun other is => ?_⟩
    rw [replaces.child] at is ⊢
    by_cases same : other = id
    · subst same
      rw [if_pos rfl]
      exact matches_ bytes data (lease ▸ there) reads
    · rw [if_neg same] at is ⊢
      exact fits other is
  rests := replaces.rests sound fun _ => rests
  free unheld := by cases unheld.symm.trans control

/-- A child that is opened where none is active. -/
theorem Mutated.opened {role opened : Text} {lease brief nonce : Json}
    (mutated : Mutated host id disk (openEdit host role opened lease brief) allowActiveChild current
      returned disk')
    (sound : Sound host office) (there : office.tasks id = some disk)
    (unique : Function.Injective host.entropy.uuid)
    (leaseIs : lease.get "lease_id" = .str (leaseName host tick)) (early : tick < office.ticks)
    (absent : ∀ entry ∈ handoffsOf host office id,
      entry.get "lease_id" ≠ .str (leaseName host tick))
    (idle : childOf host office id = .null)
    (matches_ : ∀ bytes data, office.lease = some bytes → readJson host.floats bytes = some data →
      data.get "task_id" = .str id ∧ data.get "role" = .str role ∧ data.get "owner_nonce" = nonce)
    (rolePlain : (Json.str role).Plain) (nonceIs : lease.get "owner_nonce" = nonce)
    (noncePlain : nonce.Plain)
    (tasks : after.tasks = Function.update office.tasks id (some disk'))
    (leaseKept : after.lease = office.lease) (held : office.control = some process)
    (control : after.control = some process) (ticks : office.ticks ≤ after.ticks) :
    Sound host after ∧ (∀ other ≠ process, Rely host other office after) ∧
      Tracked host after id (leaseName host tick) ∧
      ∀ other, childOf host after other = if other = id then
        (newChild host role opened lease brief).normalize else childOf host office other := by
  have here := mutated.stored_ there
  obtain ⟨activeIs, historyIs, open_, records, resting⟩ :=
    mutated.openedTask (sound.plain id current here)
  have replaces := mutated.replaces tasks
  rw [activeIs, historyIs, ← (views_of_stored here).2] at replaces
  have newLease := @get_newChild_lease host tick role opened lease brief leaseIs
  have tracks := replaces.tracks_opened idle newLease (countOf_eq_zero.mpr absent)
  have fits : ∀ bytes data, office.lease = some bytes → readJson host.floats bytes = some data →
      data.get "task_id" = .str id ∧
        (newChild host role opened lease brief).normalize.get "role" = data.get "role" ∧
        (newChild host role opened lease brief).normalize.get "owner_nonce" =
          data.get "owner_nonce" := by
    intro bytes data is reads
    obtain ⟨idIs, roleIs, nonceIs'⟩ := matches_ bytes data is reads
    rw [get_newChild_role rolePlain, roleIs, get_newChild_nonce nonceIs noncePlain, nonceIs']
    exact ⟨idIs, rfl, rfl⟩
  have rests : AtRest host after id :=
    ⟨disk', returned, records, by rw [tasks, Function.update_self], mutated.stores, resting, open_⟩
  exact ⟨replaces.sound_opened tracks newLease sound unique (early.trans_le ticks) fits rests
    (mutated.plain_ sound tasks) leaseKept control ticks, rely_of_held held control ticks tracks.1,
    tracks.2, replaces.child⟩

end Stores

/-! ## The lock and the lease -/

section Locked

variable [DecidableEq ι] {process : ι} {office base : Office ι} {lease : Option Bytes} {α : Type}
  {post : Except Raised α → Office ι → Prop}

theorem secured_acquireControl {next : Unit → Command α}
    (raises : ∀ raised later, post (.error raised) later)
    (returns : ∀ base, Sound host base → Agreed host base → base.control = some process →
      Tracks host office base → Secured host process (next ()) post base) :
    Secured host process (acquireControl.bind next) post office := by
  intro later relies sound answer after served
  rcases served with ⟨workspace, is⟩ | ⟨⟨raised, rfl⟩, rfl⟩
  · rw [serve] at is
    split at is
    · next unheld =>
        obtain ⟨rfl, rfl⟩ := Prod.mk.inj is
        have agreed := sound.free unheld
        have sound' : Sound host { later with control := some process } :=
          ⟨sound.plain, sound.fresh, sound.child, sound.handoffs, sound.lease, sound.rests,
            fun unheld => by cases unheld⟩
        refine ⟨sound', fun other differs => ?_, ?_⟩
        · refine ⟨⟨fun _ _ => id, fun _ _ _ _ => rfl⟩, le_rfl, ⟨fun held => ?_, fun held => ?_⟩,
            fun held => ?_⟩
          · cases unheld.symm.trans held
          · exact absurd (Option.some.inj held).symm differs
          · cases unheld.symm.trans held
        · exact returns _ sound' ⟨agreed.idle, agreed.busy⟩ rfl ⟨relies.tracked, relies.child⟩
    · obtain ⟨rfl, rfl⟩ := Prod.mk.inj is
      exact ⟨sound, fun other _ => .refl, fun later' _ _ => raises _ later'⟩
  · exact ⟨sound, fun other _ => .refl, fun later' _ _ => raises _ later'⟩

theorem secured_releaseControl {final : Except Raised Unit → Office ι → Prop}
    (holding : Holding host process base lease office)
    (agreed : ∀ later, Holding host process base lease later → Agreed host later)
    (returns : ∀ later, Rely host process office later → ∀ after,
      Rely host process { later with control := none } after → final (.ok ()) after) :
    Secured host process releaseControl final office := by
  intro later relies sound answer after served
  have held := (holding.rely relies).control
  rcases served with ⟨workspace, is⟩ | ⟨fails, _⟩
  · rw [serve, if_pos held] at is
    obtain ⟨rfl, rfl⟩ := Prod.mk.inj is
    have settled := agreed later (holding.rely relies)
    refine ⟨⟨sound.plain, sound.fresh, sound.child, sound.handoffs, sound.lease, sound.rests,
      fun _ => ⟨settled.idle, settled.busy⟩⟩, fun other differs => ?_, ?_⟩
    · refine ⟨⟨fun _ _ => id, fun _ _ _ _ => rfl⟩, le_rfl, ⟨fun mine => ?_, fun mine => by cases mine⟩, fun mine => ?_⟩
      · exact absurd (Option.some.inj (held.symm.trans mine)).symm differs
      · exact absurd (Option.some.inj (held.symm.trans mine)).symm differs
    · exact fun after relies' _ => returns later relies after relies'
  · cases fails

theorem secured_mutate {id : Text} {edit : Edit} {allowActiveChild : Bool} {next : Json → Command α}
    (raises : ∀ raised later, Rely host process office later → post (.error raised) later)
    (returns : ∀ later disk disk' current returned after, Rely host process office later →
      Sound host later → later.tasks id = some disk →
      Mutated host id disk edit allowActiveChild current returned disk' →
      after.tasks = Function.update later.tasks id (some disk') → after.lease = later.lease →
      after.control = later.control → later.ticks ≤ after.ticks →
      Sound host after ∧ (∀ other ≠ process, Rely host other later after) ∧
        Secured host process (next returned) post after) :
    Secured host process ((mutate id edit allowActiveChild).bind next) post office := by
  intro later relies sound answer after served
  have fails (raised : Raised) : Secured host process
      ((lift (Except.error raised : Except Raised Json)).bind next) post later :=
    fun later' relies' _ => raises raised later' (relies.trans relies')
  rcases served with ⟨workspace, is⟩ | ⟨⟨raised, rfl⟩, rfl⟩
  · rw [serve] at is
    split at is
    · obtain ⟨rfl, rfl⟩ := Prod.mk.inj is
      exact ⟨sound, fun other _ => .refl, fails _⟩
    · next disk there =>
        split at is
        · obtain ⟨rfl, rfl⟩ := Prod.mk.inj is
          exact ⟨sound, fun other _ => .refl, fails _⟩
        · next returned disk' done =>
            obtain ⟨rfl, rfl⟩ := Prod.mk.inj is
            obtain ⟨current, mutated⟩ := mutated_of_perform done
            exact returns later disk disk' current returned _ relies sound there mutated rfl rfl rfl
              (Nat.le_succ _)
  · exact ⟨sound, fun other _ => .refl, fails raised⟩

/-- The file of the lease is created, by the process that holds the lock. -/
theorem secured_create {rest : Command α} {refused : OsError → Command α}
    (holding : Holding host process base lease office)
    (raises : lease ≠ none → ∀ error later, Sound host later →
      Holding host process base lease later → Secured host process (refused error) post later)
    (returns : lease = none → ∀ later, office.ticks ≤ later.ticks → Sound host later →
      Holding host process base (some []) later → Secured host process rest post later) :
    Secured host process (.act .create fun answer : Except OsError Unit =>
      match answer with
      | .error error => refused error
      | .ok () => rest) post office := by
  intro later relies sound answer after served
  have held := holding.rely relies
  rcases served with ⟨workspace, is⟩ | ⟨fails, _⟩
  · rw [serve] at is
    split at is
    · next free =>
        obtain ⟨rfl, rfl⟩ := Prod.mk.inj is
        obtain ⟨sound', given, held'⟩ := held.withLease sound fits_empty
        exact ⟨sound', given, returns (held.lease.symm.trans free) _ relies.ticks sound' held'⟩
    · next bytes busy =>
        obtain ⟨rfl, rfl⟩ := Prod.mk.inj is
        refine ⟨sound, fun other _ => .refl, raises ?_ _ later sound held⟩
        rw [← held.lease, busy]
        simp
  · cases fails

theorem secured_write {bytes contents : Bytes} {final : Except Raised Unit → Office ι → Prop}
    (holding : Holding host process base (some bytes) office) (fits : Fits host base contents)
    (returns : ∀ later, office.ticks ≤ later.ticks → Sound host later →
      Holding host process base (some contents) later → final (.ok ()) later) :
    Secured host process (write contents) final office := by
  intro later relies sound answer after served
  have held := holding.rely relies
  rcases served with ⟨workspace, is⟩ | ⟨fails, _⟩
  · rw [serve, held.lease] at is
    obtain ⟨rfl, rfl⟩ := Prod.mk.inj is
    obtain ⟨sound', given, held'⟩ := held.withLease sound (fun _ is => Option.some.inj is ▸ fits)
    refine ⟨sound', given, fun after relies' sound'' => ?_⟩
    exact returns after (relies.ticks.trans relies'.ticks) sound'' (held'.rely relies')
  · cases fails

/-- The lease is removed by the process that holds the lock. -/
theorem secured_unlink {bytes : Bytes} {final : Except Raised Unit → Office ι → Prop}
    (holding : Holding host process base (some bytes) office)
    (returns : ∀ later, Sound host later → Holding host process base none later →
      final (.ok ()) later) :
    Secured host process unlink final office := by
  intro later relies sound answer after served
  have held := holding.rely relies
  rcases served with ⟨workspace, is⟩ | ⟨fails, _⟩
  · rw [serve, held.lease] at is
    obtain ⟨rfl, rfl⟩ := Prod.mk.inj is
    obtain ⟨sound', given, held'⟩ := held.withLease sound fits_none
    exact ⟨sound', given, fun after relies' sound'' => returns after sound'' (held'.rely relies')⟩
  · cases fails

/-- A lease that is read is there. -/
theorem inspectContents_eq_lease {data : Json} (is : inspectContents host lease = .lease data) :
    ∃ bytes, lease = some bytes ∧ readJson host.floats bytes = some data := by
  cases lease with
  | none => cases is
  | some bytes =>
      rw [inspectContents] at is
      split at is
      · cases is
      · next data' reads =>
          split at is
          · cases is
            exact ⟨bytes, rfl, reads⟩
          · cases is

theorem inspectContents_eq_missing (is : inspectContents host lease = .missing) : lease = none := by
  cases lease with
  | none => rfl
  | some bytes =>
      rw [inspectContents] at is
      split at is
      · cases is
      · split at is <;> cases is

/-- `LeaseLock.release` removes the lease if it is the given one. -/
theorem secured_releaseLease {name nonce id role : Json}
    {final : Except Raised Unit → Office ι → Prop} (holding : Holding host process base lease office)
    (raises : (∀ data, inspectContents host lease = .lease data →
        checkLease (.lease data) name nonce id role ≠ .ok ()) →
      ∀ raised later, Sound host later → Holding host process base lease later →
        final (.error raised) later)
    (returns : ∀ data, inspectContents host lease = .lease data →
      checkLease (.lease data) name nonce id role = .ok () → ∀ later, Sound host later →
      Holding host process base none later → final (.ok ()) later) :
    Secured host process (releaseLease host name nonce id role) final office := by
  refine secured_inspect fun later relies sound => ?_
  have held := holding.rely relies
  rw [held.lease]
  have fails {raised : Raised} (why : ∀ data, inspectContents host lease = .lease data →
      checkLease (.lease data) name nonce id role ≠ .ok ()) :
      ∀ later', Rely host process later later' → Sound host later' → final (.error raised) later' :=
    fun later' relies' sound' => raises why raised later' sound' (held.rely relies')
  cases info : inspectContents host lease with
  | missing => exact fails (by rw [info]; simp)
  | corrupt => exact fails (by rw [info]; simp)
  | lease data =>
      refine secured_passed rfl (secured_passed (by simp) ?_)
      refine secured_lift (fun _ passes => ?_) fun raised is => fails fun data' same => ?_
      · obtain ⟨bytes, rfl, _⟩ := inspectContents_eq_lease info
        exact secured_unlink held (returns data info passes)
      · cases info.symm.trans same
        rw [is]
        simp

/-- `LeaseLock.force_clear` removes the lease of a task. -/
theorem secured_forceClear {reason id : Text} {final : Except Raised Inspection → Office ι → Prop}
    (holding : Holding host process base lease office)
    (raises : ∀ raised later, Sound host later → Holding host process base lease later →
      final (.error raised) later)
    (absent : lease = none → ∀ later, Sound host later → Holding host process base lease later →
      final (.ok .missing) later)
    (returns : ∀ data, inspectContents host lease = .lease data →
      (data.get "task_id").equal (.str id) = true → ∀ later, Sound host later →
      Holding host process base none later → final (.ok (.lease data)) later) :
    Secured host process (forceClear host reason id) final office := by
  refine secured_require (fun _ => ?_) fun later relies sound => raises _ later sound
    (holding.rely relies)
  refine secured_inspect fun later relies sound => ?_
  have held := holding.rely relies
  rw [held.lease]
  cases info : inspectContents host lease with
  | missing =>
      intro later' relies' sound'
      exact absent (inspectContents_eq_missing info) later' sound' (held.rely relies')
  | corrupt => exact fun later' relies' sound' => raises _ later' sound' (held.rely relies')
  | lease data =>
      refine secured_passed (by simp) ?_
      refine secured_require (fun same => ?_) fun later' relies' sound' => raises _ later' sound'
        (held.rely relies')
      obtain ⟨bytes, rfl, _⟩ := inspectContents_eq_lease info
      refine Program.Secures.bind Rely.refl (secured_unlink held fun later' sound' held' => ?_)
      exact fun after relies' sound'' => returns data info same after sound'' (held'.rely relies')

/-- A lease that was read and removed is restored. -/
theorem secured_restore {data : Json} {final : Except Raised Unit → Office ι → Prop}
    (proper : Proper data) (fits : Fits host base (leaseText host data))
    (holding : Holding host process base none office)
    (returns : ∀ later, Sound host later →
      Holding host process base (some (leaseText host data)) later → final (.ok ()) later) :
    Secured host process (restore host (.lease data)) final office := by
  refine secured_passed ⟨?_, ?_⟩ (secured_passed ?_ (secured_create holding ?_ ?_))
  · rw [proper.schema, Json.int_equal_int]
  · exact List.all_eq_true.mpr proper.present
  · rw [proper.purpose, Json.equal_str]
  · exact fun there => absurd rfl there
  · intro _ later _ _ held
    rw [erase_of_absent proper.bare.1, erase_of_absent proper.bare.2]
    exact secured_write held fits fun after _ sound held' => returns after sound held'

end Locked

end Subagent

end CarbonLab.Aegis
