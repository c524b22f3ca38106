import CarbonLab.Aegis.ChildHandoff

/-!
# What a crash leaves

A process that dies between two requests of `subagent open`, `close` or `recover` leaves
a lease without a child, or a child without a lease.  Each command is described once by
what it can do when it runs alone (`Effect`); which states can be repaired follows from
that.
-/

namespace CarbonLab.Aegis

namespace Subagent

open StateStore

variable {ι : Type} {host : Host} {workspace : Json} {process : ι}

/-! ## Commands that run alone -/

/-- A program of a process that runs alone. -/
abbrev Leads [DecidableEq ι] (host : Host) (workspace : Json) (process : ι) {α : Type} (program : Command α)
    (post : Except Raised α → Office ι → Prop) (office : Office ι) : Prop :=
  Program.Meets (serve host workspace process) program (fun _ => True) post office

section Rules

variable [DecidableEq ι] {office : Office ι} {α β : Type} {post : Except Raised α → Office ι → Prop}

theorem leads_value {value : Except Raised α} (ends : post value office) :
    Leads host workspace process (lift value) post office := by
  cases value with
  | ok result => exact Program.meets_pure.mpr ⟨trivial, ends⟩
  | error raised => exact Program.meets_raise.mpr ⟨trivial, ends⟩

theorem leads_act {call : Call} {next : call.Reply → Command α}
    (leads : Leads host workspace process (next (serve host workspace process call office).1) post
      (serve host workspace process call office).2) :
    Leads host workspace process (.act call next) post office :=
  Program.meets_act.mpr ⟨trivial, leads⟩

theorem leads_lift {value : Except Raised β} {next : β → Command α}
    (returns : ∀ result, value = .ok result → Leads host workspace process (next result) post office)
    (raises : ∀ raised, value = .error raised → post (.error raised) office) :
    Leads host workspace process ((lift value).bind next) post office := by
  cases value with
  | ok result => exact returns result rfl
  | error raised => exact Program.meets_raise.mpr ⟨trivial, raises raised rfl⟩

theorem leads_require {condition : Prop} [Decidable condition] {error : Raised}
    {next : Unit → Command α}
    (passes : condition → Leads host workspace process (next ()) post office)
    (raises : ¬ condition → post (.error error) office) :
    Leads host workspace process ((lift (require condition error)).bind next) post office := by
  unfold require
  split
  · next holds => exact passes holds
  · next fails => exact Program.meets_raise.mpr ⟨trivial, raises fails⟩

theorem leads_passed {condition : Prop} [Decidable condition] {error : Raised}
    {next : Unit → Command α} (holds : condition)
    (passes : Leads host workspace process (next ()) post office) :
    Leads host workspace process ((lift (require condition error)).bind next) post office :=
  leads_require (fun _ => passes) fun fails => absurd holds fails

theorem leads_loaded {id : Text} {disk : TaskDisk} {loaded : Json} {next : Json → Command α}
    (there : office.tasks id = some disk) (loads : load host workspace id disk = .ok loaded)
    (returns : Leads host workspace process (next loaded) post office) :
    Leads host workspace process ((loadTask (some id)).bind next) post office := by
  apply leads_act
  dsimp only [serve, Option.some_or]
  rw [there]
  dsimp only
  rw [loads]
  exact returns

theorem leads_mutated {id : Text} {disk disk' : TaskDisk} {edit : Edit} {allowActiveChild : Bool}
    {returned : Json} {next : Json → Command α} (there : office.tasks id = some disk)
    (done : perform host workspace id (host.entropy.now office.ticks) disk
      (.mutate edit none allowActiveChild) = .ok (returned, disk'))
    (returns : Leads host workspace process (next returned) post { office with
      tasks := Function.update office.tasks id (some disk')
      ticks := office.ticks + 1 }) :
    Leads host workspace process ((mutate id edit allowActiveChild).bind next) post office := by
  apply leads_act
  dsimp only [serve]
  rw [there]
  dsimp only
  rw [done]
  exact returns

theorem leads_loadTask {task : Option Text} {next : Json → Command α}
    (raises : ∀ raised, post (.error raised) office)
    (returns : ∀ id disk loaded, (∀ given, task = some given → id = given) →
      office.tasks id = some disk → load host workspace id disk = .ok loaded →
      Leads host workspace process (next loaded) post office) :
    Leads host workspace process ((loadTask task).bind next) post office := by
  apply leads_act
  apply leads_lift
  · intro loaded is
    dsimp only [serve] at is
    split at is
    · cases is
    · next id found =>
        split at is
        · cases is
        · next disk there =>
            refine returns id disk loaded (fun given same => ?_) there is
            rw [same, Option.some_or] at found
            exact (Option.some.inj found).symm
  · exact fun raised _ => raises raised

theorem leads_inspect {next : Inspection → Command α}
    (returns : Leads host workspace process (next (inspectContents host office.lease)) post office) :
    Leads host workspace process ((inspect host).bind next) post office :=
  leads_act returns

theorem leads_mutate {id : Text} {edit : Edit} {allowActiveChild : Bool} {next : Json → Command α}
    (raises : ∀ raised, post (.error raised) office)
    (returns : ∀ disk returned disk', office.tasks id = some disk →
      perform host workspace id (host.entropy.now office.ticks) disk
        (.mutate edit none allowActiveChild) = .ok (returned, disk') →
      Leads host workspace process (next returned) post { office with
        tasks := Function.update office.tasks id (some disk')
        ticks := office.ticks + 1 }) :
    Leads host workspace process ((mutate id edit allowActiveChild).bind next) post office := by
  apply leads_act
  dsimp only [serve]
  split
  · exact Program.meets_raise.mpr ⟨trivial, raises _⟩
  · next disk there =>
      split
      · exact Program.meets_raise.mpr ⟨trivial, raises _⟩
      · next returned disk' done => exact returns disk returned disk' there done

theorem leads_unlink {bytes : Bytes} {final : Except Raised Unit → Office ι → Prop}
    (there : office.lease = some bytes) (ends : final (.ok ()) { office with lease := none }) :
    Leads host workspace process unlink final office := by
  apply leads_act
  dsimp only [serve]
  rw [there]
  exact Program.meets_pure.mpr ⟨trivial, ends⟩

/-- The control lock is taken, and released at the end. -/
theorem leads_locked {program : Command α} (unheld : office.control = none)
    (leads : Leads host workspace process program
      (fun outcome middle => middle.control = some process ∧
        post outcome { middle with control := none }) { office with control := some process }) :
    Leads host workspace process (acquireControl.bind fun _ => program.andFinally releaseControl)
      post office := by
  apply leads_act
  dsimp only [serve]
  rw [unheld]
  change Leads host workspace process (program.andFinally releaseControl) post
    { office with control := some process }
  refine Program.Meets.bind (Program.Meets.tryCatch (leads.mono (fun _ _ => trivial) ?_))
  intro outcome middle _ ends
  have released {γ : Type} {final : Except Raised γ → Office ι → Prop} {rest : Unit → Command γ}
      (rests : Leads host workspace process (rest ()) final { middle with control := none }) :
      Leads host workspace process (releaseControl.bind rest) final middle := by
    apply leads_act
    dsimp only [serve]
    rw [if_pos ends.1]
    exact rests
  cases outcome with
  | ok value => exact released (Program.meets_pure.mpr ⟨trivial, ends.2⟩)
  | error raised => exact released (Program.meets_raise.mpr ⟨trivial, ends.2⟩)

end Rules

/-! ## Effects -/

/-- The edits that hand a child off. -/
inductive HandsOver (host : Host) (id : Text) (disk : TaskDisk) (child : Json) (time : Text) :
    Edit → Prop
  | close (outcome summary : Text) (evidence : List Text) :
      (evidence.eraseDups ≠ [] → ∃ records,
        Evidence.loadEvidence host id disk.files true = .ok records ∧
          unknown records evidence.eraseDups = []) →
      HandsOver host id disk child time (closeEdit child time outcome summary evidence.eraseDups)
  | recover (observe : Observe) (reason : Text) : strip reason ≠ [] →
      HandsOver host id disk child time (recoverEdit observe child time reason)

/-- The store takes a handoff of the active child of a task. -/
structure Accepted (host : Host) (workspace : Json) (office : Office ι) (id : Text) (child : Json)
    (tick : ℕ) (disk' : TaskDisk) : Prop where
  late : office.ticks ≤ tick
  active : child.truthy = true
  performs : ∃ disk loaded edit returned, office.tasks id = some disk ∧
    load host workspace id disk = .ok loaded ∧ loaded.get "active_child" = child ∧
    HandsOver host id disk child (host.entropy.now tick) edit ∧
    perform host workspace id (host.entropy.now (tick + 1)) disk (.mutate edit none true) =
      .ok (returned, disk')

/-- A child is opened. -/
structure Opens (host : Host) (office after : Office ι) (id : Text) (tick : ℕ) (data : Json) :
    Prop where
  free : office.lease = none
  late : office.ticks ≤ tick
  early : tick < after.ticks
  lease : ∃ bytes, after.lease = some bytes ∧ readJson host.floats bytes = some data
  proper : Proper data
  name : data.get "lease_id" = .str (leaseName host tick)
  mutated : ∃ disk edit current returned disk', office.tasks id = some disk ∧
    Mutated host id disk edit false current returned disk' ∧
    after.tasks = Function.update office.tasks id (some disk')

/-- What a command can do. -/
inductive Effect (host : Host) (workspace : Json) (office after : Office ι) : Prop
  | idle : after.tasks = office.tasks →
      inspectContents host after.lease = inspectContents host office.lease →
      Effect host workspace office after
  | opens (id : Text) (tick : ℕ) (data : Json) : Opens host office after id tick data →
      Effect host workspace office after
  | hands (id : Text) (child data : Json) (tick : ℕ) (disk' : TaskDisk) :
      inspectContents host office.lease = .lease data →
      child.get "lease_id" = data.get "lease_id" →
      Accepted host workspace office id child tick disk' →
      after.tasks = Function.update office.tasks id (some disk') → after.lease = none →
      Effect host workspace office after

/-- A lease that can be read can be restored. -/
def Restorable (host : Host) (office : Office ι) : Prop :=
  ∀ data, inspectContents host office.lease = .lease data → Proper data

/-- What a command leaves. -/
structure Leaves (host : Host) (workspace : Json) (office after : Office ι) : Prop where
  effect : Effect host workspace office after
  control : after.control = none
  ticks : office.ticks ≤ after.ticks
  restorable : Restorable host after

/-- What was done under the lock. -/
abbrev Locked (host : Host) (workspace : Json) (process : ι) (office : Office ι)
    (_ : Except Raised Outcome) (middle : Office ι) : Prop :=
  middle.control = some process ∧ Leaves host workspace office { middle with control := none }

section Commands

variable {office : Office ι} {id : Text}

/-- Nothing was done. -/
theorem leaves_of_same {after : Office ι} (control : after.control = none)
    (restorable : Restorable host office) (tasks : after.tasks = office.tasks)
    (lease : inspectContents host after.lease = inspectContents host office.lease)
    (ticks : office.ticks ≤ after.ticks) : Leaves host workspace office after := by
  refine ⟨.idle tasks lease, control, ticks, fun data is => restorable data ?_⟩
  rw [← lease, is]

theorem inspectContents_leaseText {data : Json} (proper : Proper data) :
    inspectContents host (some (leaseText host data)) = .lease data := by
  apply inspectContents_of_proper _ proper
  rw [leaseText, readJson_jsonLine, proper.plain]

/-- The active child of a valid task has a lease. -/
theorem lease_of_validateTask {task : Json} (valid : TaskSchema.validateTask host task (some id) = .ok ())
    (active : (task.get "active_child").truthy = true) :
    ∃ name, (task.get "active_child").get "lease_id" = .str name := by
  have checked : TaskSchema.validateActiveChild host task = .ok () := by
    unfold TaskSchema.validateTask at valid
    obtain ⟨id', _, rest⟩ := bind_eq_ok.mp valid
    split at rest
    · simp only [bind_eq_ok] at rest
      obtain ⟨_, _, _, _, _, _, _, checked, _⟩ := rest
      exact checked
    · simp only [bind_eq_ok] at rest
      obtain ⟨_, _, _, _, _, checked, _⟩ := rest
      exact checked
  have there : task.get "active_child" ≠ .null := by
    intro null
    rw [null] at active
    cases active
  unfold TaskSchema.validateActiveChild at checked
  dsimp only at checked
  rw [if_pos there] at checked
  simp only [bind_eq_ok, require_eq_ok, exists_const] at checked
  obtain ⟨⟨_, texts⟩, _⟩ := checked
  have text := List.all_eq_true.mp texts "lease_id" (by simp)
  obtain ⟨name, is, _⟩ := isText_iff.mp text
  exact ⟨name, is⟩

variable [DecidableEq ι]

theorem leads_restore {data : Json} {final : Except Raised Unit → Office ι → Prop}
    (proper : Proper data) (free : office.lease = none)
    (ends : final (.ok ()) { office with lease := some (leaseText host data) }) :
    Leads host workspace process (restore host (.lease data)) final office := by
  have schema : (data.get "schema").equal (.int 2) = true := by
    rw [proper.schema, Json.int_equal_int]
  have aim : (data.get "purpose").equal (.str purpose) = true := by
    rw [proper.purpose, Json.equal_str]
  apply leads_require
  · intro _
    apply leads_require
    · intro _
      apply leads_act
      dsimp only [serve]
      rw [free, erase_of_absent proper.bare.1, erase_of_absent proper.bare.2]
      apply leads_act
      exact Program.meets_pure.mpr ⟨trivial, ends⟩
    · exact fun refused => absurd aim refused
  · exact fun refused => absurd ⟨schema, List.all_eq_true.mpr proper.present⟩ refused

/-- The handoff of a child whose lease was removed. -/
theorem leads_handOff {edit : Text → Edit} {wrap : Json → Outcome} {undo : Command Unit}
    {child data : Json} {middle : Office ι} (restorable : Restorable host office) (held : middle.control = some process)
    (tasks : middle.tasks = office.tasks) (ticks : middle.ticks = office.ticks)
    (gone : middle.lease = none)
    (is : inspectContents host office.lease = .lease data)
    (same : child.get "lease_id" = data.get "lease_id") (active : child.truthy = true)
    (loads : ∃ disk loaded, office.tasks id = some disk ∧ load host workspace id disk = .ok loaded ∧
      loaded.get "active_child" = child ∧
      ∀ time, HandsOver host id disk child time (edit time))
    (undoes : undo = restore host (.lease data)) :
    Leads host workspace process
      (Program.tryCatch (do
        let time ← now
        let updated ← mutate id (edit time) true
        return wrap updated) fun raised => do
          undo
          .raise raised) (Locked host workspace process office) middle := by
  obtain ⟨disk, loaded, there, loads, childIs, hands⟩ := loads
  have proper := restorable data is
  apply Program.Meets.tryCatch
  apply leads_act
  apply leads_mutate
  · intro raised
    apply Program.Meets.bind
    rw [undoes]
    refine leads_restore proper gone (Program.meets_raise.mpr ⟨trivial, held, ?_⟩)
    refine leaves_of_same rfl restorable tasks ?_ ?_
    · exact (inspectContents_leaseText proper).trans is.symm
    · exact ticks ▸ Nat.le_succ _
  · intro disk' returned disk'' there' done
    have same' : disk' = disk := Option.some.inj (there'.symm.trans (tasks ▸ there))
    subst same'
    refine Program.meets_pure.mpr ⟨trivial, held, ?_, rfl, ?_, ?_⟩
    · refine .hands id child data office.ticks disk'' is same ⟨le_rfl, active, disk', loaded,
        edit (host.entropy.now office.ticks), returned, there, loads, childIs, hands _, ?_⟩ ?_ gone
      · rw [← ticks]
        exact done
      · exact congrArg (Function.update · id (some disk'')) tasks
    · change office.ticks ≤ middle.ticks + 1 + 1
      omega
    · intro data' is'
      change inspectContents host middle.lease = .lease data' at is'
      rw [gone] at is'
      cases is'

/-- `LeaseLock.release`, of the lease that is there. -/
theorem leads_releaseLease {name nonce task role : Json}
    {final : Except Raised Unit → Office ι → Prop}
    (raises : (∀ data, inspectContents host office.lease = .lease data →
      checkLease (.lease data) name nonce task role ≠ .ok ()) →
      ∀ raised, final (.error raised) office)
    (returns : ∀ data, inspectContents host office.lease = .lease data →
      checkLease (.lease data) name nonce task role = .ok () →
      final (.ok ()) { office with lease := none }) :
    Leads host workspace process (releaseLease host name nonce task role) final office := by
  apply leads_inspect
  cases is : inspectContents host office.lease with
  | missing => exact Program.meets_raise.mpr ⟨trivial, raises (by rw [is]; simp) _⟩
  | corrupt => exact Program.meets_raise.mpr ⟨trivial, raises (by rw [is]; simp) _⟩
  | lease data =>
      apply leads_require
      · intro _
        apply leads_require
        · intro _
          apply leads_lift
          · intro _ passes
            obtain ⟨bytes, there, _⟩ := inspectContents_eq_lease is
            exact leads_unlink there (returns data is passes)
          · intro raised fails
            refine raises (fun data' is' passes => ?_) raised
            cases is.symm.trans is'
            cases fails.symm.trans passes
        · exact fun fails => absurd (by simp) fails
      · exact fun fails => absurd rfl fails

/-- `subagent open`, under the lock. -/
theorem leads_openLocked {owner : Owner} {role : Text} {brief : Json} (uuids : Uuids host)
    (named : Writable id) (known : Writable role) (restorable : Restorable host office) :
    Leads host workspace process (openLocked host owner id role brief)
      (Locked host workspace process office) { office with control := some process } := by
  apply Program.Meets.bind
  apply leads_act
  apply leads_act
  apply leads_act
  apply leads_act
  dsimp only [serve]
  cases free : office.lease with
  | some bytes =>
      refine Program.meets_raise.mpr ⟨trivial, rfl, leaves_of_same rfl restorable rfl ?_ ?_⟩
      · dsimp only
        rw [free]
      · exact Nat.le_add_right _ 3
  | none =>
      have facts := @reads_freshLease host owner office.ticks (office.ticks + 1) (office.ticks + 2) id
        role uuids named known
      have reads : readJson host.floats (leaseText host (freshLease host owner office.ticks
        (office.ticks + 1) (office.ticks + 2) id role)) = _ := readJson_jsonLine _
      have leaseIs := @get_freshLease host owner office.ticks (office.ticks + 1) (office.ticks + 2) id
        role "lease_id" (.str (leaseName host office.ticks)) (by simp [freshFields])
      have nonceIs := @get_freshLease host owner office.ticks (office.ticks + 1) (office.ticks + 2) id
        role "owner_nonce" (.str (host.entropy.uuid (office.ticks + 1))) (by simp [freshFields])
      have passes : checkLease (.lease (freshLease host owner office.ticks (office.ticks + 1)
          (office.ticks + 2) id role).normalize) ((freshLease host owner office.ticks (office.ticks + 1)
          (office.ticks + 2) id role).get "lease_id") ((freshLease host owner office.ticks
          (office.ticks + 1) (office.ticks + 2) id role).get "owner_nonce") (.str id) (.str role) =
          .ok () := by
        rw [leaseIs, nonceIs]
        exact facts.checkLease
      apply leads_act
      refine Program.meets_pure.mpr ⟨trivial, ?_⟩
      apply Program.Meets.tryCatch
      apply leads_act
      apply leads_mutate
      · intro raised
        apply Program.Meets.bind
        apply leads_releaseLease
        · intro fails
          exact absurd passes (fails _ (inspectContents_of_proper reads facts.proper))
        · intro data is _
          refine Program.meets_raise.mpr ⟨trivial, rfl, leaves_of_same rfl restorable rfl ?_ ?_⟩
          · dsimp only
            rw [free]
          · exact Nat.le_add_right _ 4
      · intro disk returned disk' there done
        obtain ⟨current, mutated⟩ := mutated_of_perform done
        refine Program.meets_pure.mpr ⟨trivial, rfl, .opens id office.ticks _ ⟨free, le_rfl, ?_,
          ⟨_, rfl, reads⟩, facts.proper, facts.lease, disk, _, current, returned, disk', there,
          mutated, rfl⟩, rfl, ?_, fun data is => ?_⟩
        · change office.ticks < office.ticks + 5
          omega
        · exact Nat.le_add_right _ 5
        · cases (inspectContents_of_proper reads facts.proper).symm.trans is
          exact facts.proper

theorem leads_openChild {framework : Framework} {owner : Owner} {task : Option Text} {role : Text}
    {evidence : List Text} (uuids : Uuids host) (restorable : Restorable host office)
    (unheld : office.control = none) :
    Leads host workspace process (openChild host framework owner task role evidence)
      (fun _ after => Leaves host workspace office after) office := by
  have fails := @leaves_of_same ι host workspace office office unheld restorable rfl rfl le_rfl
  apply leads_loadTask
  · exact fun _ => fails
  intro id disk loaded _ _ loads
  obtain ⟨_, _, _, valid, _⟩ := load_eq_ok.mp loads
  have facts := valid_of_validateTask valid
  have idIs : idOf loaded = id := by
    rw [idOf, facts.id_]
    rfl
  apply leads_lift
  · intro _ may
    have knows : framework.knows role = true := by
      simp only [mayOpen, bind_eq_ok, require_eq_ok, exists_const] at may
      obtain ⟨_, _, _, knows⟩ := may
      exact knows
    apply leads_act
    apply leads_lift
    · intro records _
      apply leads_lift
      · intro brief _
        apply leads_locked unheld
        rw [idIs]
        exact leads_openLocked uuids (Valid.writable facts) (writable_of_knows knows) restorable
      · exact fun _ _ => fails
    · exact fun _ _ => fails
  · exact fun _ _ => fails

/-- `subagent close`, under the lock. -/
theorem leads_closeLocked {child data : Json} {outcome summary : Text} {evidence : List Text}
    (restorable : Restorable host office) (is : inspectContents host office.lease = .lease data)
    (same : child.get "lease_id" = data.get "lease_id") (active : child.truthy = true)
    (loads : ∃ disk loaded, office.tasks id = some disk ∧ load host workspace id disk = .ok loaded ∧
      loaded.get "active_child" = child ∧ ∀ time, HandsOver host id disk child time
        (closeEdit child time outcome summary evidence)) :
    Leads host workspace process (closeLocked host child (.lease data) id outcome summary evidence)
      (Locked host workspace process office) { office with control := some process } := by
  have fails : Leaves host workspace office { office with control := none } :=
    leaves_of_same rfl restorable rfl rfl le_rfl
  apply leads_lift
  · intro lease _
    apply leads_lift
    · intro role _
      apply Program.Meets.bind
      apply leads_releaseLease
      · exact fun _ _ => ⟨rfl, fails⟩
      · intro _ _ _
        exact leads_handOff restorable rfl rfl rfl rfl is same active loads rfl
    · exact fun _ _ => ⟨rfl, fails⟩
  · exact fun _ _ => ⟨rfl, fails⟩

/-- `subagent recover`, under the lock. -/
theorem leads_recoverLocked {observe : Observe} {child data : Json} {reason : Text}
    (restorable : Restorable host office) (is : inspectContents host office.lease = .lease data)
    (same : child.get "lease_id" = data.get "lease_id") (active : child.truthy = true)
    (loads : ∃ disk loaded, office.tasks id = some disk ∧ load host workspace id disk = .ok loaded ∧
      loaded.get "active_child" = child) :
    Leads host workspace process (recoverLocked host observe child id reason)
      (Locked host workspace process office) { office with control := some process } := by
  have fails : Leaves host workspace office { office with control := none } :=
    leaves_of_same rfl restorable rfl rfl le_rfl
  obtain ⟨disk, loaded, there, loads, childIs⟩ := loads
  apply Program.Meets.bind
  apply leads_require
  · intro filled
    apply leads_inspect
    dsimp only
    rw [is]
    apply leads_require
    · intro _
      apply leads_require
      · intro _
        obtain ⟨bytes, lease, _⟩ := inspectContents_eq_lease is
        apply Program.Meets.bind
        refine leads_unlink lease (Program.meets_pure.mpr ⟨trivial, ?_⟩)
        exact leads_handOff restorable rfl rfl rfl rfl is same active
          ⟨disk, loaded, there, loads, childIs, fun time => .recover observe reason filled⟩ rfl
      · exact fun _ => ⟨rfl, fails⟩
    · exact fun _ => ⟨rfl, fails⟩
  · exact fun _ => ⟨rfl, fails⟩

theorem leads_closeChild {task lease : Option Text} {outcome summary : Text} {evidence : List Text}
    (restorable : Restorable host office) (unheld : office.control = none) :
    Leads host workspace process (closeChild host task lease outcome summary evidence)
      (fun _ after => Leaves host workspace office after) office := by
  have fails := @leaves_of_same ι host workspace office office unheld restorable rfl rfl le_rfl
  apply leads_loadTask
  · exact fun _ => fails
  intro id disk loaded _ there loads
  obtain ⟨_, _, _, valid, _⟩ := load_eq_ok.mp loads
  have facts := valid_of_validateTask valid
  have idIs : idOf loaded = id := by
    rw [idOf, facts.id_]
    rfl
  apply leads_require
  · intro active
    obtain ⟨name, leaseIs⟩ := lease_of_validateTask valid active
    apply leads_inspect
    apply leads_lift
    · intro _ may
      simp only [mayClose, bind_eq_ok, require_eq_ok, exists_const, leaseIs, Json.equal_str] at may
      obtain ⟨⟨_, same, _⟩, _⟩ := may
      cases is : inspectContents host office.lease with
      | missing =>
          rw [is] at same
          cases same
      | corrupt =>
          rw [is] at same
          cases same
      | lease data =>
          rw [is] at same
          have locked (known : evidence.eraseDups ≠ [] → ∃ records,
              Evidence.loadEvidence host id disk.files true = .ok records ∧
                unknown records evidence.eraseDups = []) :
              Leads host workspace process (acquireControl.bind fun _ =>
                (closeLocked host (loaded.get "active_child") (.lease data) id outcome summary
                  evidence.eraseDups).andFinally releaseControl)
                (fun _ after => Leaves host workspace office after) office := by
            apply leads_locked unheld
            exact leads_closeLocked restorable is (leaseIs.trans same.symm) active
              ⟨disk, loaded, there, loads, rfl, fun time => .close outcome summary evidence known⟩
          rw [idIs]
          apply Program.Meets.bind
          unfold checkEvidence
          split
          · next empty =>
              exact Program.meets_pure.mpr ⟨trivial, locked fun filled => absurd empty filled⟩
          · apply leads_act
            dsimp only [serve]
            rw [there]
            apply leads_lift
            · intro records loaded
              apply leads_value
              split
              · next checked =>
                  exact locked fun _ => ⟨records, loaded, require_eq_ok.mp checked⟩
              · exact fails
            · exact fun _ _ => fails
    · exact fun _ _ => fails
  · exact fun _ => fails

theorem leads_recoverChild {observe : Observe} {force : Bool} {task : Option Text} {reason : Text}
    (restorable : Restorable host office) (unheld : office.control = none) :
    Leads host workspace process (recoverChild host observe force task reason)
      (fun _ after => Leaves host workspace office after) office := by
  have fails := @leaves_of_same ι host workspace office office unheld restorable rfl rfl le_rfl
  apply leads_require
  · intro _
    apply leads_inspect
    apply leads_lift
    · intro target _
      apply leads_loadTask
      · exact fun _ => fails
      intro id disk loaded given there loads
      have idIs := given target rfl
      subst idIs
      obtain ⟨_, _, _, valid, _⟩ := load_eq_ok.mp loads
      apply leads_require
      · intro may
        obtain ⟨active, same⟩ := may
        obtain ⟨name, leaseIs⟩ := lease_of_validateTask valid active
        rw [leaseIs, Json.str_equal] at same
        cases is : inspectContents host office.lease with
        | missing =>
            rw [is] at same
            cases same
        | corrupt =>
            rw [is] at same
            cases same
        | lease data =>
            rw [is] at same
            apply leads_locked unheld
            exact leads_recoverLocked restorable is (leaseIs.trans same.symm) active
              ⟨disk, loaded, there, loads, rfl⟩
      · exact fun _ => fails
    · exact fun _ _ => fails
  · exact fun _ => fails

end Commands

/-! ## Repairs -/

/-- The commands that a repair is made of. -/
inductive Repairs (host : Host) : Command Outcome → Prop
  | open_ (framework : Framework) (owner : Owner) (task : Option Text) (role : Text)
      (evidence : List Text) : Repairs host (openChild host framework owner task role evidence)
  | close (task lease : Option Text) (outcome summary : Text) (evidence : List Text) :
      Repairs host (closeChild host task lease outcome summary evidence)
  | recover (observe : Observe) (force : Bool) (task : Option Text) (reason : Text) :
      Repairs host (recoverChild host observe force task reason)

/-- Some time goes by. -/
def wait (office : Office ι) (delay : ℕ) : Office ι := { office with ticks := office.ticks + delay }

/-- The lock of a dead process is stale, and goes to the next one that asks. -/
def crashed (office : Office ι) : Office ι := { office with control := none }

/-- Commands one after the other, each after some time. -/
def repaired [DecidableEq ι] (host : Host) (workspace : Json) (process : ι) :
    List (ℕ × Command Outcome) → Office ι → Office ι
  | [], office => office
  | (delay, command) :: rest, office => repaired host workspace process rest
      (command.run (serve host workspace process) (wait office delay)).2

/-- No lease and no active child. -/
def Clean (host : Host) (office : Office ι) : Prop :=
  office.lease = none ∧ ∀ id, childOf host office id = .null

/-- Some commands lead to a clean state. -/
def Repairable [DecidableEq ι] (host : Host) (workspace : Json) (process : ι) (office : Office ι) :
    Prop :=
  ∃ steps : List (ℕ × Command Outcome), (∀ step ∈ steps, Repairs host step.2) ∧
    Clean host (repaired host workspace process steps office)

/-- A lease without a child, or a child without its lease. -/
inductive Stuck (host : Host) (office : Office ι) : Prop
  | unclaimed : office.lease ≠ none → (∀ id, childOf host office id = .null) → Stuck host office
  | orphan (id name : Text) : (childOf host office id).get "lease_id" = .str name →
      (∀ data, inspectContents host office.lease = .lease data → data.get "lease_id" ≠ .str name) →
      (∀ tick, office.ticks ≤ tick → leaseName host tick ≠ name) → Stuck host office

/-- The store takes a handoff of an active child, now or later. -/
def Accepts (host : Host) (workspace : Json) (office : Office ι) : Prop :=
  ∃ id child tick disk', Accepted host workspace office id child tick disk'

section Repair

variable {office after : Office ι} {command : Command Outcome}

theorem childOf_of_load {id : Text} {disk : TaskDisk} {loaded : Json}
    (there : office.tasks id = some disk) (loads : load host workspace id disk = .ok loaded) :
    childOf host office id = loaded.get "active_child" := by
  obtain ⟨bytes, state, reads, _⟩ := load_eq_ok.mp loads
  apply (views_of_stored _).1
  rw [stored, there, Option.bind_some, readTask, state, Option.bind_some, reads]

theorem childOf_of_tasks (tasks : after.tasks = office.tasks) (id : Text) :
    childOf host after id = childOf host office id := by
  rw [childOf, stored, tasks, childOf, stored]

theorem lease_ne_none (same : inspectContents host after.lease = inspectContents host office.lease)
    (there : office.lease ≠ none) : after.lease ≠ none := by
  intro gone
  rw [gone] at same
  exact there (inspectContents_eq_missing same.symm)

/-- No command gets out of such a state. -/
theorem Stuck.leaves (stuck : Stuck host office) (leaves : Leaves host workspace office after) :
    Stuck host after := by
  cases stuck with
  | unclaimed there idle =>
      cases leaves.effect with
      | idle tasks lease =>
          apply Stuck.unclaimed (lease_ne_none lease there)
          intro id
          rw [childOf_of_tasks tasks, idle]
      | opens id tick data opens => exact absurd opens.free there
      | hands id child data tick disk' _ _ accepted _ _ =>
          obtain ⟨disk, loaded, edit, returned, here, loads, childIs, _⟩ := accepted.performs
          have active := accepted.active
          rw [← childIs, ← childOf_of_load here loads, idle] at active
          cases active
  | orphan id name leaseIs other late =>
      have late' : ∀ tick, after.ticks ≤ tick → leaseName host tick ≠ name :=
        fun tick after_ => late tick (leaves.ticks.trans after_)
      cases leaves.effect with
      | idle tasks lease =>
          refine .orphan id name ?_ ?_ late'
          · rw [childOf_of_tasks tasks, leaseIs]
          · rw [lease]
            exact other
      | opens id' tick data opens =>
          obtain ⟨disk, edit, current, returned, disk', here, mutated, tasks⟩ := opens.mutated
          have differs : id ≠ id' := by
            intro same
            subst same
            have idle := mutated.guarded rfl
            rw [← (views_of_stored (mutated.stored_ here)).1, truthy_of_get leaseIs] at idle
            cases idle
          refine .orphan id name ?_ (fun data' is => ?_) late'
          · rw [childOf_update tasks mutated.stores, if_neg differs, leaseIs]
          · obtain ⟨bytes, lease, reads⟩ := opens.lease
            rw [lease, inspectContents_of_proper reads opens.proper, Inspection.lease.injEq] at is
            rw [← is, opens.name]
            simpa using late tick opens.late
      | hands id' child data tick disk' is same accepted tasks gone =>
          obtain ⟨disk, loaded, edit, returned, here, loads, childIs, _, done⟩ := accepted.performs
          obtain ⟨current, mutated⟩ := mutated_of_perform done
          have differs : id ≠ id' := by
            intro equal
            subst equal
            rw [← childIs, ← childOf_of_load here loads, leaseIs] at same
            exact other data is same.symm
          refine .orphan id name ?_ (fun data' is' => ?_) late'
          · rw [childOf_update tasks mutated.stores, if_neg differs, leaseIs]
          · rw [gone] at is'
            cases is'

theorem Stuck.wait (stuck : Stuck host office) (delay : ℕ) : Stuck host (wait office delay) := by
  cases stuck with
  | unclaimed there idle => exact .unclaimed there idle
  | orphan id name leaseIs other late =>
      exact .orphan id name leaseIs other fun tick after => late tick ((Nat.le_add_right _ _).trans after)

theorem Stuck.not_clean (stuck : Stuck host office) : ¬ Clean host office := by
  intro clean
  cases stuck with
  | unclaimed there _ => exact there clean.1
  | orphan id name leaseIs _ _ =>
      rw [clean.2] at leaseIs
      exact null_get_ne leaseIs

/-- The lease and the children agree, or no command gets them to. -/
theorem Sound.oneChild_or_stuck (sound : Sound host office) :
    OneChild host office ∨ Stuck host (crashed office) := by
  have orphan {id : Text} (active : childOf host office id ≠ .null)
      (other : ∀ data, inspectContents host office.lease = .lease data →
        (childOf host office id).get "lease_id" ≠ data.get "lease_id") :
      Stuck host (crashed office) := by
    obtain ⟨tick, leaseIs, _⟩ := sound.child id active
    refine .orphan id (leaseName host tick) leaseIs (fun data is same => ?_) fun late after same => ?_
    · exact other data is (leaseIs.trans same.symm)
    · exact (sound.fresh id late after).1 (leaseIs.trans (congrArg Json.str same.symm))
  by_cases idle : ∀ id, childOf host office id = .null
  · cases is : office.lease with
    | none => exact Or.inl (Or.inl ⟨is, idle⟩)
    | some bytes =>
        refine Or.inr (.unclaimed ?_ idle)
        change office.lease ≠ none
        rw [is]
        simp
  · push Not at idle
    obtain ⟨id, active⟩ := idle
    cases is : inspectContents host office.lease with
    | missing => exact Or.inr (orphan active fun data is' => by cases is.symm.trans is')
    | corrupt => exact Or.inr (orphan active fun data is' => by cases is.symm.trans is')
    | lease data =>
        obtain ⟨bytes, there, reads⟩ := inspectContents_eq_lease is
        obtain ⟨proper, fits⟩ := sound.lease bytes there data reads
        by_cases same : (childOf host office id).get "lease_id" = data.get "lease_id"
        · obtain ⟨taskIs, roleIs, _⟩ := fits id same
          by_cases alone : ∀ other ≠ id, childOf host office other = .null
          · exact Or.inl (Or.inr ⟨bytes, data, id, there, reads, taskIs, active, alone, same, roleIs⟩)
          · push Not at alone
            obtain ⟨other, differs, active'⟩ := alone
            refine Or.inr (orphan active' fun data' is' same' => differs ?_)
            cases is.symm.trans is'
            have taskIs' := (fits other same').1
            exact Json.str.inj (taskIs'.symm.trans taskIs)
        · refine Or.inr (orphan active fun data' is' same' => same ?_)
          cases is.symm.trans is'
          exact same'

/-- After a handoff no child is active. -/
theorem Mutated.cleared {id name : Text} {disk disk' : TaskDisk} {edit : Edit}
    {allowActiveChild : Bool} {current returned : Json}
    (mutated : Mutated host id disk edit allowActiveChild current returned disk')
    (plain : current.Plain) (handsOff : HandsOff edit name) : returned.get "active_child" = .null := by
  obtain ⟨edited, edits, kept⟩ := mutated.edits
  rw [plain] at edits
  obtain ⟨_, _, _, activeIs, _⟩ :=
    handsOff current _ edited (Neat.of_plain plain mutated.valid.object) edits
  rw [Json.get, Json.getD, kept _ (by simp [childFields]), activeIs, Option.getD_some]

variable [DecidableEq ι]

theorem leaves_of_repairs (uuids : Uuids host) (repairs : Repairs host command)
    (restorable : Restorable host office) (unheld : office.control = none) :
    Leaves host workspace office (command.run (serve host workspace process) office).2 := by
  cases repairs with
  | open_ framework owner task role evidence =>
      exact (leads_openChild uuids restorable unheld).2
  | close task lease outcome summary evidence => exact (leads_closeChild restorable unheld).2
  | recover observe force task reason => exact (leads_recoverChild restorable unheld).2

/-- What every command keeps holds at the end of a repair. -/
theorem repaired_invariant {holds : Office ι → Prop} (uuids : Uuids host)
    (waits : ∀ office delay, holds office → holds (wait office delay))
    (keeps : ∀ office after, holds office → Leaves host workspace office after → holds after)
    {steps : List (ℕ × Command Outcome)} (repairs : ∀ step ∈ steps, Repairs host step.2)
    (restorable : Restorable host office) (unheld : office.control = none) (start : holds office) :
    holds (repaired host workspace process steps office) := by
  induction steps generalizing office with
  | nil => exact start
  | cons step rest ih =>
      obtain ⟨first, later⟩ := List.forall_mem_cons.mp repairs
      have leaves : Leaves host workspace (wait office step.1)
          (step.2.run (serve host workspace process) (wait office step.1)).2 :=
        leaves_of_repairs uuids first restorable unheld
      exact ih later leaves.restorable leaves.control (keeps _ _ (waits _ _ start) leaves)

theorem Stuck.not_repairable (stuck : Stuck host office) (uuids : Uuids host)
    (restorable : Restorable host office) (unheld : office.control = none) :
    ¬ Repairable host workspace process office := by
  intro repairable
  obtain ⟨steps, repairs, clean⟩ := repairable
  have last : Stuck host (repaired host workspace process steps office) :=
    repaired_invariant uuids (fun _ delay stuck => stuck.wait delay)
      (fun _ _ stuck leaves => stuck.leaves leaves) repairs restorable unheld stuck
  exact last.not_clean clean

/-- A lease stays until the store takes a handoff. -/
theorem accepts_of_repairable {data : Json} (uuids : Uuids host)
    (restorable : Restorable host office) (unheld : office.control = none)
    (is : inspectContents host office.lease = .lease data)
    (repairable : Repairable host workspace process office) : Accepts host workspace office := by
  obtain ⟨steps, repairs, clean⟩ := repairable
  have last : Accepts host workspace office ∨
      (repaired host workspace process steps office).tasks = office.tasks ∧
        inspectContents host (repaired host workspace process steps office).lease = .lease data ∧
        office.ticks ≤ (repaired host workspace process steps office).ticks := by
    refine @repaired_invariant ι host workspace process office _
      (fun later => Accepts host workspace office ∨ later.tasks = office.tasks ∧
        inspectContents host later.lease = .lease data ∧ office.ticks ≤ later.ticks) uuids ?_ ?_ steps
      repairs restorable unheld (Or.inr ⟨rfl, is, le_rfl⟩)
    · intro later delay waiting
      rcases waiting with done | ⟨tasks, lease, ticks⟩
      · exact Or.inl done
      · exact Or.inr ⟨tasks, lease, ticks.trans (Nat.le_add_right _ _)⟩
    · intro later after waiting leaves
      rcases waiting with done | ⟨tasks, lease, ticks⟩
      · exact Or.inl done
      · cases leaves.effect with
        | idle tasks' lease' =>
            exact Or.inr ⟨tasks'.trans tasks, lease'.trans lease, ticks.trans leaves.ticks⟩
        | opens id tick data opens =>
            rw [opens.free] at lease
            cases lease
        | hands id child data tick disk' _ _ accepted _ _ =>
            obtain ⟨late, active, performs⟩ := accepted
            rw [tasks] at performs
            exact Or.inl ⟨id, child, tick, disk', ticks.trans late, active, performs⟩
  rcases last with done | ⟨_, lease, _⟩
  · exact done
  · rw [clean.1] at lease
    cases lease

/-- The end of a handoff that the store takes. -/
theorem leads_handedOff {edit : Text → Edit} {wrap : Json → Outcome} {undo : Command Unit}
    {id name : Text} {disk disk' : TaskDisk} {returned : Json} {middle : Office ι}
    (sound : Sound host office) (handsOff : ∀ time, HandsOff (edit time) name)
    (alone : ∀ other ≠ id, childOf host office other = .null)
    (held : middle.control = some process) (tasks : middle.tasks = office.tasks)
    (gone : middle.lease = none) (there : office.tasks id = some disk)
    (done : perform host workspace id (host.entropy.now (middle.ticks + 1)) disk
      (.mutate (edit (host.entropy.now middle.ticks)) none true) = .ok (returned, disk')) :
    Leads host workspace process
      (Program.tryCatch (do
        let time ← now
        let updated ← mutate id (edit time) true
        return wrap updated) fun raised => do
          undo
          .raise raised)
      (fun _ (last : Office ι) => last.control = some process ∧ Clean host (crashed last)) middle := by
  obtain ⟨current, mutated⟩ := mutated_of_perform done
  have cleared := mutated.cleared (sound.plain id current (mutated.stored_ there)) (handsOff _)
  have there' : middle.tasks id = some disk := by
    rw [tasks, there]
  apply Program.Meets.tryCatch
  apply leads_act
  apply @leads_mutated ι host workspace process _ { middle with ticks := middle.ticks + 1 } _ _ id
    disk disk' (edit (host.entropy.now middle.ticks)) true returned _ there' done
  refine Program.meets_pure.mpr ⟨trivial, held, gone, fun other => ?_⟩
  have updates : Function.update middle.tasks id (some disk') =
      Function.update office.tasks id (some disk') := by
    rw [tasks]
  rw [childOf_update updates mutated.stores, cleared]
  split
  · rfl
  · next differs => exact alone other differs

/-- `subagent recover` of the child whose lease is there. -/
theorem leads_recovered {observe : Observe} {id name reason : Text} {disk disk' : TaskDisk}
    {loaded data returned : Json} (sound : Sound host office) (unheld : after.control = none)
    (tasks : after.tasks = office.tasks) (lease : after.lease = office.lease)
    (is : inspectContents host office.lease = .lease data)
    (taskIs : data.get "task_id" = .str id)
    (same : (loaded.get "active_child").get "lease_id" = data.get "lease_id")
    (nameIs : data.get "lease_id" = .str name) (active : (loaded.get "active_child").truthy = true)
    (alone : ∀ other ≠ id, childOf host office other = .null) (filled : strip reason ≠ [])
    (handsOff : ∀ time, HandsOff (recoverEdit observe (loaded.get "active_child") time reason) name)
    (there : office.tasks id = some disk) (loads : load host workspace id disk = .ok loaded)
    (done : perform host workspace id (host.entropy.now (after.ticks + 1)) disk
      (.mutate (recoverEdit observe (loaded.get "active_child") (host.entropy.now after.ticks) reason)
        none true) = .ok (returned, disk')) :
    Leads host workspace process (recoverChild host observe true (some id) reason)
      (fun _ last => Clean host last) after := by
  have there' : after.tasks id = some disk := by
    rw [tasks, there]
  have is' : inspectContents host after.lease = .lease data := by
    rw [lease, is]
  have mine : (data.get "task_id").equal (.str id) = true := by
    rw [taskIs, Json.equal_str]
  obtain ⟨bytes, lease', _⟩ := inspectContents_eq_lease is'
  apply leads_passed rfl
  apply leads_inspect
  rw [is']
  apply leads_lift
  · intro target targetIs
    have targetIs' : target = id := by
      simp only [recoveryTarget, Option.some_or, bind_eq_ok, require_eq_ok, exists_const] at targetIs
      exact (Except.ok.inj targetIs.2).symm
    subst targetIs'
    apply leads_loaded there' loads
    apply leads_passed
    · refine ⟨active, ?_⟩
      rw [same, Inspection.get, nameIs, Json.equal_str]
    · apply leads_locked unheld
      apply Program.Meets.bind
      apply leads_passed filled
      apply leads_inspect
      dsimp only
      rw [is']
      apply leads_passed
      · simp
      · apply leads_passed mine
        apply Program.Meets.bind
        refine leads_unlink lease' (Program.meets_pure.mpr ⟨trivial, ?_⟩)
        exact leads_handedOff sound handsOff alone rfl tasks rfl there done
  · intro raised fails
    have passes : recoveryTarget (some id) (.lease data) = .ok id := by
      simp only [recoveryTarget, Option.some_or, bind_eq_ok, require_eq_ok, exists_const]
      exact ⟨fun _ => mine, rfl⟩
    cases fails.symm.trans passes

/-- `subagent close` of the child whose lease is there. -/
theorem leads_closed {id name outcome summary : Text} {evidence : List Text} {disk disk' : TaskDisk}
    {loaded data role returned : Json} (sound : Sound host office) (unheld : after.control = none)
    (tasks : after.tasks = office.tasks) (lease : after.lease = office.lease)
    (is : inspectContents host office.lease = .lease data)
    (taskIs : data.get "task_id" = .str id) (idIs : loaded.get "id" = .str id)
    (leaseFound : (loaded.get "active_child").get? "lease_id" = some (.str name))
    (nameIs : data.get "lease_id" = .str name)
    (roleFound : (loaded.get "active_child").get? "role" = some role)
    (roleIs : (data.get "role").equal role = true)
    (nonceIs : (data.get "owner_nonce").equal ((loaded.get "active_child").get "owner_nonce") = true)
    (active : (loaded.get "active_child").truthy = true)
    (alone : ∀ other ≠ id, childOf host office other = .null)
    (known : evidence.eraseDups ≠ [] → ∃ records,
      Evidence.loadEvidence host id disk.files true = .ok records ∧
        unknown records evidence.eraseDups = [])
    (handsOff : ∀ time, HandsOff (closeEdit (loaded.get "active_child") time outcome summary
      evidence.eraseDups) name)
    (there : office.tasks id = some disk) (loads : load host workspace id disk = .ok loaded)
    (done : perform host workspace id (host.entropy.now (after.ticks + 1)) disk
      (.mutate (closeEdit (loaded.get "active_child") (host.entropy.now after.ticks) outcome summary
        evidence.eraseDups) none true) = .ok (returned, disk')) :
    Leads host workspace process (closeChild host (some id) none outcome summary evidence)
      (fun _ last => Clean host last) after := by
  have there' : after.tasks id = some disk := by
    rw [tasks, there]
  have is' : inspectContents host after.lease = .lease data := by
    rw [lease, is]
  have leaseIs : (loaded.get "active_child").get "lease_id" = .str name := by
    rw [Json.get, Json.getD, leaseFound, Option.getD_some]
  have idIs' : idOf loaded = id := by
    rw [idOf, idIs]
    rfl
  have may : mayClose loaded (loaded.get "active_child") (.lease data) none = .ok () := by
    simp only [mayClose, bind_eq_ok, require_eq_ok, exists_const]
    refine ⟨⟨rfl, ?_, ?_⟩, rfl⟩
    · rw [Inspection.get, nameIs, leaseIs, Json.equal_str]
    · rw [Inspection.get, taskIs, idIs, Json.equal_str]
  have passes : checkLease (.lease data) (.str name) ((loaded.get "active_child").get "owner_nonce")
      (.str id) role = .ok () := by
    simp [checkLease, Inspection.get, nameIs, taskIs, roleIs, nonceIs]
  have locked : Leads host workspace process (acquireControl.bind fun _ =>
      (closeLocked host (loaded.get "active_child") (.lease data) id outcome summary
        evidence.eraseDups).andFinally releaseControl) (fun _ last => Clean host last) after := by
    apply leads_locked unheld
    apply leads_lift
    · intro found foundIs
      cases leaseFound.symm.trans (item_eq_ok.mp foundIs)
      apply leads_lift
      · intro found' foundIs'
        cases roleFound.symm.trans (item_eq_ok.mp foundIs')
        apply Program.Meets.bind
        apply leads_releaseLease
        · exact fun fails => absurd passes (fails data is')
        · intro _ _ _
          exact leads_handedOff sound handsOff alone rfl tasks rfl there done
      · intro raised fails
        cases fails.symm.trans (item_eq_ok.mpr roleFound)
    · intro raised fails
      cases fails.symm.trans (item_eq_ok.mpr leaseFound)
  apply leads_loaded there' loads
  apply leads_passed active
  apply leads_inspect
  rw [is']
  refine leads_lift (fun _ _ => ?_) fun raised fails => (by cases fails.symm.trans may)
  rw [idIs']
  apply Program.Meets.bind
  unfold checkEvidence
  split
  · exact Program.meets_pure.mpr ⟨trivial, locked⟩
  · next filled =>
      obtain ⟨records, ledger, all⟩ := known filled
      apply leads_act
      dsimp only [serve]
      rw [there']
      dsimp only
      rw [ledger]
      apply leads_value
      rw [require, if_pos all]
      exact locked

/-- The lease of the active child is there, and the store takes a handoff. -/
theorem repairable_of_accepted {id : Text} {child data : Json} {tick : ℕ} {disk' : TaskDisk}
    (sound : Sound host office) (is : inspectContents host office.lease = .lease data)
    (taskIs : data.get "task_id" = .str id)
    (same : (childOf host office id).get "lease_id" = data.get "lease_id")
    (alone : ∀ other ≠ id, childOf host office other = .null)
    (accepted : Accepted host workspace office id child tick disk') :
    Repairable host workspace process (crashed office) := by
  obtain ⟨late, active, disk, loaded, edit, returned, there, loads, rfl, hands, done⟩ := accepted
  obtain ⟨bytes, lease, reads⟩ := inspectContents_eq_lease is
  obtain ⟨proper, fits⟩ := sound.lease bytes lease data reads
  obtain ⟨_, roleIs, nonceIs⟩ := fits id same
  have childIs := childOf_of_load there loads
  obtain ⟨_, _, _, valid, _⟩ := load_eq_ok.mp loads
  have present : childOf host office id ≠ .null := by
    rw [childIs]
    intro null
    rw [null] at active
    cases active
  obtain ⟨issued, leaseIs, _⟩ := sound.child id present
  rw [childIs] at leaseIs same roleIs nonceIs
  have nameIs := same.symm.trans leaseIs
  have found {key : Text} {value : Json} (getIs : (loaded.get "active_child").get key = value)
      (filled : value ≠ .null) : (loaded.get "active_child").get? key = some value := by
    rw [← getIs]
    exact Json.get?_of_get_ne_null (getIs ▸ filled)
  have leaseFound := found leaseIs (by simp)
  obtain ⟨role, roleData, _⟩ := proper.strings "role" (by simp [leaseStrings])
  obtain ⟨nonce, nonceData, _⟩ := proper.strings "owner_nonce" (by simp [leaseStrings])
  have waits : (wait (crashed office) (tick - office.ticks)).ticks = tick := by
    change office.ticks + (tick - office.ticks) = tick
    omega
  rw [← waits] at hands done
  cases hands with
  | recover observe reason filled =>
      refine ⟨[(tick - office.ticks, recoverChild host observe true (some id) reason)],
        by simpa using Repairs.recover observe true (some id) reason, ?_⟩
      have leads : Leads host workspace process (recoverChild host observe true (some id) reason)
          (fun _ last => Clean host last) (wait (crashed office) (tick - office.ticks)) :=
        leads_recovered sound rfl rfl rfl is taskIs same nameIs active alone filled
          (fun time => recoverEdit_handsOff leaseFound) there loads done
      exact leads.2
  | close outcome summary evidence known =>
      refine ⟨[(tick - office.ticks, closeChild host (some id) none outcome summary evidence)],
        by simpa using Repairs.close (some id) none outcome summary evidence, ?_⟩
      have leads : Leads host workspace process
          (closeChild host (some id) none outcome summary evidence)
          (fun _ last => Clean host last) (wait (crashed office) (tick - office.ticks)) :=
        leads_closed sound rfl rfl rfl is taskIs (valid_of_validateTask valid).id_ leaseFound
          nameIs (found (roleIs.trans roleData) (by simp)) (by rw [roleData, Json.equal_str])
          (by rw [nonceIs, nonceData, Json.equal_str]) active alone known
          (fun time => closeEdit_handsOff leaseFound) there loads done
      exact leads.2

end Repair

/-! ## Crashes -/

section Crashes

variable {framework : ι → Framework} {owner : ι → Owner} {start : Office ι}
  {pool : Pool ι Call Call.Reply Raised Outcome (Office ι)}

theorem Sound.restorable {office : Office ι} (sound : Sound host office) :
    Restorable host (crashed office) := by
  intro data is
  obtain ⟨bytes, there, reads⟩ := inspectContents_eq_lease is
  exact (sound.lease bytes there data reads).1

/-- The task of an active child loads, and none of its handoffs has the identifier of the
lease of that child. -/
def Closable (host : Host) (workspace : Json) (office : Office ι) : Prop :=
  ∀ id disk, office.tasks id = some disk → childOf host office id ≠ .null →
    (∃ task, load host workspace id disk = .ok task) ∧
      ∀ entry ∈ handoffsOf host office id,
        TaskSchema.handoffId entry ≠ (childOf host office id).get "lease_id"

/-- What the store takes has a new identifier. -/
theorem Accepted.unused {office : Office ι} {id : Text} {child : Json} {tick : ℕ} {disk' : TaskDisk}
    (accepted : Accepted host workspace office id child tick disk') (sound : Sound host office) :
    ∀ entry ∈ handoffsOf host office id,
      TaskSchema.handoffId entry ≠ (childOf host office id).get "lease_id" := by
  obtain ⟨_, active, disk, loaded, edit, returned, there, loads, rfl, hands, done⟩ := accepted
  have childIs := childOf_of_load there loads
  have present : childOf host office id ≠ .null := by
    rw [childIs]
    intro null
    rw [null] at active
    cases active
  obtain ⟨issued, leaseIs, _⟩ := sound.child id present
  rw [childIs] at leaseIs
  have leaseFound := Json.get?_of_get_ne_null (leaseIs ▸ by simp :
    (loaded.get "active_child").get "lease_id" ≠ .null)
  rw [leaseIs] at leaseFound
  have handsOff : HandsOff edit (leaseName host issued) := by
    cases hands with
    | close outcome summary evidence _ => exact closeEdit_handsOff leaseFound
    | recover observe reason _ => exact recoverEdit_handsOff leaseFound
  obtain ⟨current, mutated⟩ := mutated_of_perform done
  have here := mutated.stored_ there
  obtain ⟨handoff, _, listed, handoffLease, unnamed⟩ :=
    mutated.handedTask (sound.plain id current here) handsOff
  rw [(views_of_stored here).2, childIs, leaseIs, ← handoffId_of_unnamed unnamed handoffLease]
  exact handoffId_ne_of_concat mutated.validAfter listed

/-- The store takes the handoff of the child of a task that can be closed. -/
theorem accepted_of_closable {office : Office ι} {id : Text} (sound : Sound host office)
    (timely : ∀ tick, strip (host.entropy.now tick) ≠ [])
    (closable : Closable host workspace office) (busy : childOf host office id ≠ .null) :
    ∃ disk', Accepted host workspace office id (childOf host office id) office.ticks disk' := by
  obtain ⟨disk, task, records, there, reads, resting, open_⟩ := sound.rests id busy
  obtain ⟨⟨task', loads⟩, unused⟩ := closable id disk there busy
  obtain ⟨bytes, state, reads', _⟩ := load_eq_ok.mp loads
  have same : task' = task := by
    rw [readTask, state, Option.bind_some, reads', Option.some.injEq] at reads
    exact reads
  rw [same] at loads
  have here : stored host office id = some task := by
    rw [stored, there, Option.bind_some, reads]
  obtain ⟨childIs, handoffsAre⟩ := views_of_stored here
  rw [childIs, handoffsAre] at unused
  obtain ⟨_, leaseIs, _⟩ := sound.child id busy
  rw [childIs] at busy
  obtain ⟨returned, after, done⟩ := @perform_closeEdit host id disk task workspace records
    (host.entropy.now office.ticks) (host.entropy.now (office.ticks + 1)) resting open_ loads busy
    unused (timely _)
  exact ⟨after, le_rfl, truthy_of_get leaseIs, disk, task, _, returned, there, loads, childIs.symm,
    childIs ▸ .close "accepted" "s" [] (fun filled => absurd rfl filled), done⟩

variable [DecidableEq ι]

theorem Sound.repairable_iff {office : Office ι} (sound : Sound host office) (uuids : Uuids host)
    (timely : ∀ tick, strip (host.entropy.now tick) ≠ []) :
    Repairable host workspace process (crashed office) ↔
      OneChild host office ∧ Closable host workspace office := by
  constructor
  · intro repairable
    have agreed : OneChild host office := by
      rcases sound.oneChild_or_stuck with agreed | stuck
      · exact agreed
      · exact absurd repairable (stuck.not_repairable uuids sound.restorable rfl)
    refine ⟨agreed, fun id disk there busy => ?_⟩
    rcases agreed with ⟨_, idle⟩ | ⟨bytes, data, owner, lease, reads, _, _, alone, _⟩
    · exact absurd (idle id) busy
    · have is := inspectContents_of_proper reads (sound.lease bytes lease data reads).1
      rw [← lease] at is
      obtain ⟨id', child, tick, disk', late, taken, performs⟩ :=
        @accepts_of_repairable ι host workspace process (crashed office) _ data uuids
          sound.restorable rfl is repairable
      have accepted : Accepted host workspace office id' child tick disk' := ⟨late, taken, performs⟩
      obtain ⟨other, loaded, _, _, there', loads, childIs, _⟩ := accepted.performs
      have busy' : childOf host office id' ≠ .null := by
        intro idle
        rw [← childIs, ← childOf_of_load there' loads, idle] at taken
        cases taken
      have mine {name : Text} (active : childOf host office name ≠ .null) : name = owner :=
        by_contra fun differs => active (alone name differs)
      have same : id' = id := (mine busy').trans (mine busy).symm
      rw [same] at accepted there' loads
      cases there.symm.trans there'
      exact ⟨⟨loaded, loads⟩, accepted.unused sound⟩
  · rintro ⟨clean | ⟨bytes, data, id, lease, reads, taskIs, busy, alone, same, _⟩, closable⟩
    · exact ⟨[], by simp, clean⟩
    · have is := inspectContents_of_proper reads (sound.lease bytes lease data reads).1
      rw [← lease] at is
      obtain ⟨disk', accepted⟩ := accepted_of_closable sound timely closable busy
      exact repairable_of_accepted sound is taskIs same alone accepted

end Crashes

/-! ## A crash of `open` -/

/-- A request that changes no other task than the one of the laboratory. -/
def Call.isLocal : Call → Bool
  | .mutate id _ _ => id = "t-1"
  | .createTask _ _ _ _ _ => false
  | _ => true

theorem tasks_of_isLocal {call : Call} (here : call.isLocal = true) {other : Text}
    (differs : other ≠ "t-1") (office : Office Bool) :
    (serve labHost .null true call office).2.tasks other = office.tasks other := by
  cases call with
  | mutate id edit allowActiveChild =>
      have idIs : id = "t-1" := of_decide_eq_true here
      dsimp only [serve]
      split
      · rfl
      · split
        · rfl
        · exact Function.update_of_ne (idIs ▸ differs) _ _
  | createTask id title mode complexity risk => cases here
  | acquire =>
      dsimp only [serve]
      split <;> rfl
  | release =>
      dsimp only [serve]
      split <;> rfl
  | create =>
      dsimp only [serve]
      split <;> rfl
  | write contents =>
      dsimp only [serve]
      split <;> rfl
  | unlink =>
      dsimp only [serve]
      split <;> rfl
  | load task => rfl
  | loadEvidence id => rfl
  | read => rfl
  | uuid => rfl
  | now => rfl

/-- `labOpen` dies after it wrote the lease and before it changed the task. -/
theorem labOpen_dies : ∃ cut, labOpen.Visits (serve labHost .null true) labOffice cut ∧
    cut.lease.isSome = true ∧ ∀ id, childOf labHost cut id = .null := by
  have facts : (∃ cut ∈ labOpen.cuts (serve labHost .null true) labOffice,
      cut.lease.isSome = true ∧ inspectContents labHost cut.lease ≠ .corrupt ∧
        childOf labHost cut "t-1" = .null) ∧
      ∀ call ∈ labOpen.requests (serve labHost .null true) labOffice, call.isLocal = true := by
    decide +kernel
  obtain ⟨⟨cut, member, there, _, idle⟩, calls⟩ := facts
  have visits := Program.visits_of_mem_cuts member
  refine ⟨cut, visits, there, fun id => ?_⟩
  by_cases same : id = "t-1"
  · rw [same, idle]
  · have kept : cut.tasks id = labOffice.tasks id :=
      Program.Visits.unchanged (fun office : Office Bool => office.tasks id) visits
        fun call inside office => tasks_of_isLocal (calls call inside) same office
    rw [childOf, stored, kept]
    change ((((if id = "t-1" then labDisk else none).bind (readTask labHost)).map _).getD _) = _
    rw [if_neg same]
    rfl

/-- The processes at that time. -/
theorem reaches_of_visits {cut : Office Bool}
    (visits : labOpen.Visits (serve labHost .null true) labOffice cut) :
    ∃ pool : Pool Bool Call Call.Reply Raised Outcome (Office Bool),
      Pool.Reaches (Serves labHost) (fun _ => Issues labHost labFramework labOwner) labOffice pool ∧
        pool.shared = cut := by
  have runs : (Function.update (fun _ => none) true (some labOpen) : Bool → _) true = some labOpen :=
    rfl
  exact reaches_labOpen.visits serves_lab runs visits

end Subagent

end CarbonLab.Aegis
