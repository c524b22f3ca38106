import CarbonLab.Aegis.TaskSave

/-!
# What a save keeps

A task that is saved is read back as it was, and the fields that a save does not set are
those of the edited task.
-/

namespace CarbonLab.Aegis

theorem Host.plain_sha256 {host : Host} (bytes : Bytes) : (Json.str (host.sha256 bytes)).Plain := by
  refine Json.plain_str.mpr (mergeSurrogates_ascii ?_)
  intro letter member
  have hex : ∀ letter ∈ text "0123456789abcdef", letter.val < 128 := by simp [text]
  exact hex letter ((host.sha256_hex _).2 letter member)

theorem Host.plain_now {host : Host} (tick : ℕ) : (Json.str (host.entropy.now tick)).Plain :=
  Json.plain_str.mpr (mergeSurrogates_ascii (host.now_ascii tick))

namespace StateStore

variable {host : Host}

/-! ## Valid tasks -/

/-- What a task that passes `validate_task` is. -/
structure Valid (host : Host) (id : Text) (task : Json) : Prop where
  object : task.obj?.isSome = true
  id_ : task.get "id" = .str id
  canonical : isCanonicalName "-" id = true
  revision : ∃ revision, task.get "revision" = .int revision ∧ 0 ≤ revision
  epoch : ∃ epoch, task.get "change_epoch" = .int epoch ∧ 0 ≤ epoch
  tdd : ∀ tdd, task.get? "tdd" = some tdd → TaskSchema.validateTdd host id tdd = .ok ()
  receipts : TaskSchema.validateReceipts host id task = .ok ()
  lists : TaskSchema.validateLists task = .ok ()
  history : TaskSchema.validateHistory task = .ok ()
  integrity : TaskSchema.isVersioned (task.get "schema") = true →
    task.get "integrity_sha256" = .str (TaskSchema.stateDigest host task)

theorem valid_of_validateTask {id : Text} {task : Json}
    (valid : TaskSchema.validateTask host task (some id) = .ok ()) : Valid host id task := by
  rw [TaskSchema.validateTask] at valid
  obtain ⟨id', header, rest⟩ := bind_eq_ok.mp valid
  obtain ⟨tdd, receipts, lists, history, integrity⟩ :
      (∀ tdd, task.get? "tdd" = some tdd → TaskSchema.validateTdd host id' tdd = .ok ()) ∧
        TaskSchema.validateReceipts host id' task = .ok () ∧
        TaskSchema.validateLists task = .ok () ∧ TaskSchema.validateHistory task = .ok () ∧
        (TaskSchema.isVersioned (task.get "schema") = true →
          (task.get "integrity_sha256").equal (.str (TaskSchema.stateDigest host task)) = true) := by
    split at rest
    · next tdd found =>
        simp only [bind_eq_ok, require_eq_ok] at rest
        obtain ⟨_, here, _, receipts, _, lists, _, _, _, history, integrity⟩ := rest
        refine ⟨?_, receipts, lists, history, integrity⟩
        intro other same
        cases found.symm.trans same
        exact here
    · next absent =>
        simp only [bind_eq_ok, require_eq_ok] at rest
        obtain ⟨_, receipts, _, lists, _, _, _, history, integrity⟩ := rest
        refine ⟨?_, receipts, lists, history, integrity⟩
        intro other same
        cases absent.symm.trans same
  rw [TaskSchema.validateHeader] at header
  simp only [bind_eq_ok, require_eq_ok, exists_const] at header
  obtain ⟨object, _, _, _, _, _, found, named, same, _, _, _, _, _, _, _, _, _, _, _, revision, epoch,
    _, is⟩ := header
  cases is
  have idIs : id = id' := of_decide_eq_true same
  subst idIs
  rw [TaskSchema.validateTaskId] at named
  split at named
  · next string is =>
      split at named
      · next canonical =>
          cases named
          exact ⟨object, Json.str?_eq_some.mp is, canonical, isAtLeast_iff.mp revision,
            isAtLeast_iff.mp epoch, tdd, receipts, lists, history,
            fun versioned => Json.equal_str.mp (integrity versioned)⟩
      · cases named
  · cases named

theorem plain_of_canonical {id : Text} (canonical : isCanonicalName "-" id = true) :
    (Json.str id).Plain := by
  refine Json.plain_str.mpr (mergeSurrogates_ascii ?_)
  cases id with
  | nil => cases canonical
  | cons first rest =>
      simp only [isCanonicalName, Bool.and_eq_true, List.all_eq_true, Bool.or_eq_true, decide_eq_true_eq,
        isLowerAlnum] at canonical
      obtain ⟨⟨⟨here, _⟩, inside⟩, _⟩ := canonical
      have dash : ∀ letter ∈ text "-", letter.val < 128 := by simp [text]
      intro letter member
      rcases List.mem_cons.mp member with rfl | later
      · omega
      · rcases inside letter later with alnum | other
        · omega
        · exact dash letter other

/-! ## Dictionaries with defaults -/

section

variable {value default : Json} {key other : Text}

theorem isSome_setDefault : (setDefault value key default).obj?.isSome = value.obj?.isSome := by
  rw [setDefault]
  split
  · rfl
  · exact Json.isSome_set

theorem get?_setDefault_of_ne (differs : key ≠ other) :
    (setDefault value key default).get? other = value.get? other := by
  rw [setDefault]
  split
  · rfl
  · exact Json.get?_set_of_ne value differs

theorem get?_setDefault_of_some {found : Json} (there : value.get? other = some found) :
    (setDefault value key default).get? other = some found := by
  rw [setDefault]
  split
  · exact there
  · next absent =>
      by_cases same : key = other
      · subst same
        rw [there] at absent
        exact absurd rfl absent
      · rw [Json.get?_set_of_ne value same, there]

theorem plain_setDefault (plain : value.Plain) (keyPlain : mergeSurrogates key = key)
    (defaultPlain : default.Plain) : (setDefault value key default).Plain := by
  rw [setDefault]
  split
  · exact plain
  · exact plain.set_ keyPlain defaultPlain

end

section

variable {value : Json} {defaults : List (Text × Json)} {key : Text}

theorem isSome_withDefaults : (withDefaults value defaults).obj?.isSome = value.obj?.isSome := by
  induction defaults generalizing value with
  | nil => rfl
  | cons field defaults ih => exact ih.trans isSome_setDefault

theorem get?_withDefaults_of_not_mem (absent : key ∉ defaults.map (·.1)) :
    (withDefaults value defaults).get? key = value.get? key := by
  induction defaults generalizing value with
  | nil => rfl
  | cons field defaults ih =>
      rw [List.map_cons, List.mem_cons, not_or] at absent
      exact (ih absent.2).trans (get?_setDefault_of_ne (Ne.symm absent.1))

theorem get?_withDefaults_of_some {found : Json} (there : value.get? key = some found) :
    (withDefaults value defaults).get? key = some found := by
  induction defaults generalizing value with
  | nil => exact there
  | cons field defaults ih => exact ih (get?_setDefault_of_some there)

theorem plain_withDefaults (plain : value.Plain)
    (all : ∀ field ∈ defaults, mergeSurrogates field.1 = field.1 ∧ field.2.Plain) :
    (withDefaults value defaults).Plain := by
  induction defaults generalizing value with
  | nil => exact plain
  | cons field defaults ih =>
      obtain ⟨here, rest⟩ := List.forall_mem_cons.mp all
      exact ih (plain_setDefault plain here.1 here.2) rest

end

theorem plain_emptyTdd :
    ∀ field ∈ TaskSchema.emptyTdd, mergeSurrogates field.1 = field.1 ∧ field.2.Plain := by
  simp only [TaskSchema.emptyTdd, List.forall_mem_cons, List.not_mem_nil, false_implies,
    implies_true, mergeSurrogates_text, Json.plain_null, Json.plain_bool, Json.plain_str,
    mergeSurrogates, true_and, and_true]
  exact Json.plain_arr (by simp)

theorem plain_migrationDefaults :
    ∀ field ∈ migrationDefaults host, mergeSurrogates field.1 = field.1 ∧ field.2.Plain := by
  simp only [migrationDefaults, List.forall_mem_cons, List.not_mem_nil, false_implies,
    implies_true, mergeSurrogates_text, Json.plain_null, Json.plain_bool, true_and, and_true]
  exact ⟨Host.plain_sha256 [], Json.plain_ofPairs plain_emptyTdd⟩

/-! ## Migration -/

theorem isSome_reseal {key : Text} {value : Json} :
    (reseal host key value).obj?.isSome = value.obj?.isSome := Json.isSome_set

theorem plain_reseal {key : Text} {value : Json} (plain : value.Plain)
    (keyPlain : mergeSurrogates key = key) : (reseal host key value).Plain :=
  plain.set_ keyPlain (Host.plain_digest _)

theorem plain_migrateMoves {index epoch : ℤ} {moves migrated : List Json}
    (plain : ∀ move ∈ moves, move.Plain) (done : migrateMoves index epoch moves = .ok migrated) :
    ∀ move ∈ migrated, move.Plain := by
  induction moves generalizing index epoch migrated with
  | nil =>
      cases done
      simp
  | cons move moves ih =>
      obtain ⟨here, later⟩ := List.forall_mem_cons.mp plain
      rw [migrateMoves] at done
      simp only [bind_eq_ok] at done
      obtain ⟨_, _, _, _, rest, moved, done⟩ := done
      cases done
      refine List.forall_mem_cons.mpr ⟨?_, ih later moved⟩
      exact plain_setDefault (plain_setDefault here (by simp) (by simp)) (by simp) (by simp)

/-- The parts of a migration. -/
theorem migrate_eq_ok {task migrated : Json} (done : migrate host task = .ok migrated) :
    ∃ complete, complete.Plain ∧ complete.obj?.isSome = true ∧
      (complete.get "schema").equal (.int 4) = true ∧
      (∀ key, key ∉ [text "schema", "tdd"] → key ∉ (migrationDefaults host).map (·.1) →
        complete.get? key = task.normalize.get? key) ∧
      (∃ tdd, complete.get? "tdd" = some (withDefaults tdd TaskSchema.emptyTdd) ∧
        ∀ found, task.normalize.get? "tdd" = some found → tdd = found) ∧
      (complete.get? "transitions" = none ∧ migrated = sealTask host complete ∨
        (∃ moves moved, complete.get? "transitions" = some (.arr moves) ∧
          migrateMoves 1 0 moves = .ok moved ∧
          migrated = sealTask host (complete.set "transitions" (.arr moved))) ∨
        ∃ other, complete.get? "transitions" = some other ∧ other.arr? = none ∧
          migrated = sealTask host complete) := by
  rw [migrate] at done
  simp only [bind_eq_ok, require_eq_ok, exists_const] at done
  obtain ⟨schema, is, tdd, done⟩ := done
  obtain ⟨object, rfl⟩ := fetch_eq_ok.mp is
  generalize currentIs : (if (task.normalize.get "schema").equal (.int 4) = true then task.normalize
    else task.normalize.set "schema" (.int 4)) = current at done tdd
  have currentObject : current.obj?.isSome = true := by
    rw [← currentIs]
    split
    · exact object
    · exact Json.isSome_set.trans object
  have currentPlain : current.Plain := by
    rw [← currentIs]
    split
    · exact task.plain_normalize
    · exact task.plain_normalize.set_ (by simp) (by simp)
  have currentSchema : (current.get "schema").equal (.int 4) = true := by
    rw [← currentIs]
    split
    · next same => exact same
    · rw [Json.get_set_self object]
      exact Json.int_equal_int.mpr rfl
  have filledPlain := plain_withDefaults currentPlain (@plain_migrationDefaults host)
  have filledObject : (withDefaults current (migrationDefaults host)).obj?.isSome = true :=
    isSome_withDefaults.trans currentObject
  have tddPlain := plain_withDefaults (filledPlain.get "tdd") plain_emptyTdd
  refine ⟨_, filledPlain.set_ (mergeSurrogates_text "tdd") tddPlain,
    Json.isSome_set.trans filledObject, ?_, ?_, ?_, ?_⟩
  · rw [Json.get_set_of_ne _ (by simp), Json.get, Json.getD,
      get?_withDefaults_of_not_mem (by simp [migrationDefaults])]
    exact currentSchema
  · intro key kept other
    simp only [List.mem_cons, List.not_mem_nil, or_false, not_or] at kept
    rw [Json.get?_set_of_ne _ (Ne.symm kept.2), get?_withDefaults_of_not_mem other, ← currentIs]
    split
    · rfl
    · exact Json.get?_set_of_ne _ (Ne.symm kept.1)
  · refine ⟨_, by rw [Json.get?_set filledObject, if_pos rfl], fun found there => ?_⟩
    have inside : current.get? "tdd" = some found := by
      rw [← currentIs]
      split
      · exact there
      · rw [Json.get?_set_of_ne _ (by simp), there]
    rw [Json.get, Json.getD, get?_withDefaults_of_some inside, Option.getD_some]
  · split at done
    · next missing =>
        cases done
        exact Or.inl ⟨missing, rfl⟩
    · next moves there =>
        obtain ⟨moved, is, done⟩ := bind_eq_ok.mp done
        cases done
        exact Or.inr (Or.inl ⟨moves, moved, there, is, rfl⟩)
    · next other noList there =>
        simp only [bind_eq_ok, require_eq_ok, exists_const] at done
        obtain ⟨_, _, _, done⟩ := done
        cases done
        refine Or.inr (Or.inr ⟨other, there, ?_, rfl⟩)
        cases other with
        | arr moves => exact absurd rfl (noList moves)
        | _ => rfl

/-- A migrated task is read back as it was. -/
theorem plain_migrate {task migrated : Json} (done : migrate host task = .ok migrated) :
    migrated.Plain := by
  obtain ⟨complete, plain, _, _, _, _, rest⟩ := migrate_eq_ok done
  rcases rest with ⟨_, rfl⟩ | ⟨moves, moved, there, is, rfl⟩ | ⟨_, _, _, rfl⟩
  · exact plain_reseal plain (by simp)
  · refine plain_reseal (plain.set_ (by simp) (Json.plain_arr ?_)) (by simp)
    exact plain_migrateMoves (plain.get? there).item is
  · exact plain_reseal plain (by simp)

theorem isSome_migrate {task migrated : Json} (done : migrate host task = .ok migrated) :
    migrated.obj?.isSome = true := by
  obtain ⟨complete, _, object, _, _, _, rest⟩ := migrate_eq_ok done
  rcases rest with ⟨_, rfl⟩ | ⟨moves, moved, _, _, rfl⟩ | ⟨_, _, _, rfl⟩
  · exact isSome_reseal.trans object
  · exact isSome_reseal.trans (Json.isSome_set.trans object)
  · exact isSome_reseal.trans object

theorem schema_migrate {task migrated : Json} (done : migrate host task = .ok migrated) :
    (migrated.get "schema").equal (.int 4) = true := by
  obtain ⟨complete, _, _, schema, _, _, rest⟩ := migrate_eq_ok done
  rcases rest with ⟨_, rfl⟩ | ⟨moves, moved, _, _, rfl⟩ | ⟨_, _, _, rfl⟩
  · rw [sealTask, reseal, Json.get_set_of_ne _ (by simp)]
    exact schema
  · rw [sealTask, reseal, Json.get_set_of_ne _ (by simp), Json.get_set_of_ne _ (by simp)]
    exact schema
  · rw [sealTask, reseal, Json.get_set_of_ne _ (by simp)]
    exact schema

/-- A migrated task has a development record. -/
theorem tdd_migrate {task migrated : Json} (done : migrate host task = .ok migrated) :
    (migrated.get? "tdd").isSome = true := by
  obtain ⟨complete, _, _, _, _, ⟨tdd, there, _⟩, rest⟩ := migrate_eq_ok done
  have kept {value : Json} (found : value.get? "tdd" = some (withDefaults tdd TaskSchema.emptyTdd)) :
      ((sealTask host value).get? "tdd").isSome = true := by
    rw [sealTask, reseal, Json.get?_set_of_ne _ (by simp), found]
    rfl
  rcases rest with ⟨_, rfl⟩ | ⟨moves, moved, _, _, rfl⟩ | ⟨_, _, _, rfl⟩
  · exact kept there
  · exact kept (by rw [Json.get?_set_of_ne _ (by simp), there])
  · exact kept there

/-! ## The fields that a save sets -/

/-- The fields that `_save_locked` may set. -/
def savedFields : List Text :=
  ["evidence_set_digest", "falsification", "review_receipt", "final_audit_complete",
    "final_audit_workspace", "revision", "updated", "integrity_sha256"]

/-- A task that differs from another one only in fields that a save sets. -/
structure Touched (before after : Json) : Prop where
  plain : before.Plain → after.Plain
  object : after.obj?.isSome = before.obj?.isSome
  kept : ∀ key ∉ savedFields, after.get? key = before.get? key

namespace Touched

variable {before after later : Json}

theorem refl : Touched before before := ⟨id, rfl, fun _ _ => rfl⟩

theorem trans (first : Touched before after) (second : Touched after later) :
    Touched before later where
  plain plain := second.plain (first.plain plain)
  object := second.object.trans first.object
  kept key absent := (second.kept key absent).trans (first.kept key absent)

theorem set {name : String} (member : text name ∈ savedFields) {value : Json}
    (plain : value.Plain) : Touched before (before.set name value) where
  plain beforePlain := beforePlain.set_ (mergeSurrogates_text name) plain
  object := Json.isSome_set
  kept key absent := by
    refine Json.get?_set_of_ne before ?_
    rintro rfl
    exact absent member

theorem erase {name : String} (member : text name ∈ savedFields) :
    Touched before (before.erase name) where
  plain beforePlain := beforePlain.erase _
  object := Json.isSome_erase
  kept key absent := by
    refine Json.get?_erase before ?_
    rintro rfl
    exact absent member

theorem dropReceipt {name : String} (member : text name ∈ savedFields) {changed : Bool}
    {current : Json} : Touched before (dropReceipt name changed current before) := by
  rw [StateStore.dropReceipt]
  split
  · exact set member Json.plain_null
  · exact refl

theorem get (touched : Touched before after) {key : Text} (absent : key ∉ savedFields) :
    after.get key = before.get key := by
  rw [Json.get, Json.getD, touched.kept key absent, Json.get, Json.getD]

theorem getD (touched : Touched before after) {key : Text} (absent : key ∉ savedFields)
    (default : Json) : after.getD key default = before.getD key default := by
  rw [Json.getD, touched.kept key absent, Json.getD]

end Touched

theorem touched_keepReceipts {current migrated updated kept : Json}
    (done : keepReceipts current migrated updated = .ok kept) : Touched updated kept := by
  rw [keepReceipts] at done
  simp only [bind_eq_ok] at done
  obtain ⟨_, _, _, _, done⟩ := done
  cases done
  refine Touched.trans ?_ (Touched.dropReceipt (by simp [savedFields]))
  exact Touched.dropReceipt (by simp [savedFields])

theorem touched_keepAudit {current updated : Json} :
    Touched updated (keepAudit current updated) := by
  rw [keepAudit]
  split
  · have dropped : Touched updated (updated.set "final_audit_complete" (.bool false)) :=
      Touched.set (by simp [savedFields]) (Json.plain_bool _)
    exact dropped.trans (Touched.erase (by simp [savedFields]))
  · exact Touched.refl

theorem touched_sealTask {task : Json} : Touched task (sealTask host task) :=
  Touched.set (by simp [savedFields]) (Host.plain_digest _)

/-- The task that a save stores. -/
def storedTask (host : Host) (current checked : Json) (expected : ℤ) (time : Text) : Json :=
  sealTask host (((keepAudit current checked).set "revision" (.int (expected + 1))).set "updated"
    (.str time))

theorem touched_storedTask {current checked : Json} {expected : ℤ} {tick : ℕ} :
    Touched checked (storedTask host current checked expected (host.entropy.now tick)) := by
  have audits : Touched checked (keepAudit current checked) := touched_keepAudit
  have counts : Touched (keepAudit current checked)
      ((keepAudit current checked).set "revision" (.int (expected + 1))) :=
    Touched.set (by simp [savedFields]) (by simp)
  have dates : Touched ((keepAudit current checked).set "revision" (.int (expected + 1)))
      (((keepAudit current checked).set "revision" (.int (expected + 1))).set "updated"
        (.str (host.entropy.now tick))) :=
    Touched.set (by simp [savedFields]) (Host.plain_now tick)
  exact audits.trans (counts.trans (dates.trans touched_sealTask))

/-- What a save computes: the current and the edited task after their migration, the task
that is compared with the current one, and the task that is stored. -/
structure Prepared (host : Host) (files : TaskFiles) (current edited : Json) (expected : ℤ)
    (tick : ℕ) (migrated updated checked : Json) (records : List Json) : Prop where
  here : (current.get "revision").equal (.int expected) = true
  migrates : migrate host current = .ok migrated
  updates : migrate host edited = .ok updated
  same : (updated.get "id").equal (current.get "id") = true
  loads : Evidence.loadEvidence host ((current.get "id").str?.getD []) files true = .ok records
  waived : ∃ gates, StateMachine.itemsOf updated "gates" = .ok gates ∧
    gates.forM (validateWaiver host records (current.get "id")
      (updated.getD "change_epoch" (.int 0))) = .ok ()
  heads : validateHead records current updated = .ok ()
  keeps : keepReceipts current migrated
    (updated.set "evidence_set_digest" (.str (evidenceSetDigest host records))) = .ok checked
  appends : validateAppendOnly migrated checked = .ok ()
  attacked : checked.get "falsification" ≠ .null →
    validateBoundFalsification host checked false = .ok ()
  reviewed : checked.get "review_receipt" ≠ .null → validateBoundReview host checked = .ok ()
  valid : TaskSchema.validateTask host
    (storedTask host current checked expected (host.entropy.now tick))
    (some ((current.get "id").str?.getD [])) = .ok ()

theorem prepare_eq_ok {files : TaskFiles} {current edited migrated stored : Json} {expected : ℤ}
    {tick : ℕ} (done : prepare host files current edited expected (host.entropy.now tick) =
      .ok (migrated, stored)) :
    ∃ updated checked records,
      Prepared host files current edited expected tick migrated updated checked records ∧
        stored = storedTask host current checked expected (host.entropy.now tick) := by
  rw [prepare] at done
  simp only [bind_eq_ok, require_eq_ok, exists_const] at done
  obtain ⟨here, migrated', migrates, updated, updates, same, records, loads, gates, listed, _,
    waived, _, heads, checked, keeps, _, appends, rest⟩ := done
  refine ⟨updated, checked, records, ?_⟩
  by_cases attacked : checked.get "falsification" = .null <;>
    by_cases reviewed : checked.get "review_receipt" = .null <;>
    simp only [attacked, reviewed, ne_eq, not_true_eq_false, not_false_eq_true, if_true, if_false,
      bind_eq_ok] at rest
  · obtain ⟨_, valid, done⟩ := rest
    cases done
    exact ⟨⟨here, migrates, updates, same, loads, ⟨gates, listed, waived⟩, heads, keeps, appends,
      fun filled => absurd attacked filled, fun filled => absurd reviewed filled, valid⟩, rfl⟩
  · obtain ⟨_, review, _, valid, done⟩ := rest
    cases done
    exact ⟨⟨here, migrates, updates, same, loads, ⟨gates, listed, waived⟩, heads, keeps, appends,
      fun filled => absurd attacked filled, fun _ => review, valid⟩, rfl⟩
  · obtain ⟨_, attack, _, valid, done⟩ := rest
    cases done
    exact ⟨⟨here, migrates, updates, same, loads, ⟨gates, listed, waived⟩, heads, keeps, appends,
      fun _ => attack, fun filled => absurd reviewed filled, valid⟩, rfl⟩
  · obtain ⟨_, attack, _, review, _, valid, done⟩ := rest
    cases done
    exact ⟨⟨here, migrates, updates, same, loads, ⟨gates, listed, waived⟩, heads, keeps, appends,
      fun _ => attack, fun _ => review, valid⟩, rfl⟩

namespace Prepared

variable {files : TaskFiles} {current edited migrated updated checked : Json} {expected : ℤ}
  {tick : ℕ} {records : List Json}

theorem touches (prepared : Prepared host files current edited expected tick migrated updated
    checked records) : Touched updated checked :=
  (Touched.set (by simp [savedFields]) (Host.plain_sha256 _)).trans
    (touched_keepReceipts prepared.keeps)

theorem object (prepared : Prepared host files current edited expected tick migrated updated
    checked records) : checked.obj?.isSome = true :=
  prepared.touches.object.trans (isSome_migrate prepared.updates)

/-- A stored task is read back as it was. -/
theorem plain (prepared : Prepared host files current edited expected tick migrated updated
    checked records) :
    (storedTask host current checked expected (host.entropy.now tick)).Plain :=
  touched_storedTask.plain (prepared.touches.plain (plain_migrate prepared.updates))

theorem revision (prepared : Prepared host files current edited expected tick migrated updated
    checked records) :
    (storedTask host current checked expected (host.entropy.now tick)).get "revision" =
      .int (expected + 1) := by
  rw [storedTask, sealTask, reseal, Json.get_set_of_ne _ (by simp), Json.get_set_of_ne _ (by simp)]
  exact Json.get_set_self (touched_keepAudit.object.trans prepared.object)

theorem schema (prepared : Prepared host files current edited expected tick migrated updated
    checked records) :
    ((storedTask host current checked expected (host.entropy.now tick)).get "schema").equal
      (.int 4) = true := by
  have stored := (prepared.touches.trans (@touched_storedTask host current checked expected tick))
  rw [stored.get (by simp [savedFields])]
  exact schema_migrate prepared.updates

end Prepared

end StateStore

end CarbonLab.Aegis
