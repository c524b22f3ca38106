import CarbonLab.Aegis.AnchorChain

/-!
# Loading what was saved

A save leaves the file of the task, its anchor and one more entry in the history.  The task
can be loaded again exactly when the history before the save leads to the anchor that the
save continues.
-/

namespace CarbonLab.Aegis

namespace StateStore

variable {host : Host} {id : Text}

/-! ## Loads -/

/-- A last check that is made only under a condition. -/
theorem ite_bind_eq_ok {α : Type} {condition : Prop} [Decidable condition]
    {check : Except Raised Unit} {result value : α} :
    (if condition then (do check; pure result) else pure result) = .ok value ↔
      (condition → check = .ok ()) ∧ result = value := by
  split
  · next holds =>
      rw [bind_eq_ok]
      constructor
      · rintro ⟨_, passes, same⟩
        exact ⟨fun _ => passes, Except.ok.inj same⟩
      · rintro ⟨passes, rfl⟩
        exact ⟨(), passes holds, rfl⟩
  · next fails => exact ⟨fun same => ⟨fun holds => absurd holds fails, Except.ok.inj same⟩,
      fun both => congrArg Except.ok both.2⟩

/-- The anchor of a task matches it. -/
def Matches (anchor task : Json) : Prop :=
  (anchor.get "revision").equal (task.get "revision") = true ∧
    (anchor.get "state_sha256").equal (task.get "integrity_sha256") = true

/-- What a load asks of the files of a task. -/
theorem load_eq_ok {workspace task : Json} {disk : TaskDisk} :
    load host workspace id disk = .ok task ↔
      ∃ bytes, disk.files.state = some bytes ∧ readJson host.floats bytes = some task ∧
        TaskSchema.validateTask host task (some id) = .ok () ∧
        (TaskSchema.isVersioned (task.get "schema") = true →
          ∃ anchor, loadAnchor host id disk true = .ok (some anchor) ∧ Matches anchor task) ∧
        ((task.get "state").equal (.str "FINALIZE") = true →
          validateFinished host workspace id disk.files task = .ok ()) := by
  rw [load]
  cases disk.files.state with
  | none => simp
  | some bytes =>
      simp only [Option.some.injEq, exists_eq_left']
      cases readJson host.floats bytes with
      | none => simp
      | some read =>
          simp only [Option.some.injEq, bind_eq_ok]
          constructor
          · rintro ⟨_, valid, rest⟩
            split at rest
            · simp only [bind_eq_ok, require_eq_ok, exists_const, ite_bind_eq_ok] at rest
              obtain ⟨found, loads, here, finished, rfl⟩ := rest
              cases found with
              | none => cases here
              | some anchor =>
                  rw [Option.any_some, Bool.and_eq_true] at here
                  exact ⟨rfl, valid, fun _ => ⟨anchor, loads, here⟩, finished⟩
            · next old =>
                obtain ⟨finished, rfl⟩ := ite_bind_eq_ok.mp rest
                exact ⟨rfl, valid, fun new => absurd new old, finished⟩
          · rintro ⟨rfl, valid, anchored, finished⟩
            refine ⟨(), valid, ?_⟩
            split
            · next new =>
                obtain ⟨anchor, loads, here⟩ := anchored new
                simp only [bind_eq_ok, require_eq_ok, exists_const, ite_bind_eq_ok]
                exact ⟨some anchor, loads, Bool.and_eq_true _ _ ▸ here, finished, trivial⟩
            · exact ite_bind_eq_ok.mpr ⟨finished, rfl⟩

/-! ## Saves -/

/-- The anchor that a save of a task continues: the task's anchor, or a baseline for a task
that has none. -/
def anchorBefore (host : Host) (id : Text) (disk : TaskDisk) (current : Json) :
    Except Raised Json := do
  match ← loadAnchor host id disk (TaskSchema.isVersioned (current.get "schema")) with
  | some anchor => return anchor
  | none => return newAnchor host (← migrate host current) none

/-- The history of a task with an anchor in it. -/
def withAnchor (host : Host) (name : Text) (anchor : Json) (disk : TaskDisk) :
    List (Text × Option Bytes) :=
  let entries := disk.history.getD []
  if (entries.map (·.1)).contains name then entries
  else entries ++ [(name, some (fileText host anchor))]

theorem withAnchor_ne_nil {name : Text} {anchor : Json} {disk : TaskDisk} :
    withAnchor host name anchor disk ≠ [] := by
  rw [withAnchor]
  split
  · next member =>
      intro empty
      rw [empty] at member
      cases member
  · simp

/-- The history of a task, with the anchor that a save continues in it, leads from the
origin of this anchor to the revision of the task. -/
def Ready (host : Host) (id : Text) (disk : TaskDisk) (current : Json) : Prop :=
  ∃ prior name revision, anchorBefore host id disk current = .ok prior ∧
    historyPath prior = .ok name ∧ current.get "revision" = .int revision ∧
    Rooted host id (withAnchor host name prior disk) prior revision

/-- What a save does. -/
structure Saved (host : Host) (id : Text) (disk : TaskDisk) (current : Json) (revision : ℤ)
    (stored prior : Json) (priorName name : Text) (after : TaskDisk) : Prop where
  here : current.get "revision" = .int revision
  prior_ : anchorBefore host id disk current = .ok prior
  priorPath : historyPath prior = .ok priorName
  path : historyPath (newAnchor host stored (some prior)) = .ok name
  follows : Follows id stored prior revision
  plain : stored.Plain
  valid : TaskSchema.validateTask host stored (some id) = .ok ()
  versioned : TaskSchema.isVersioned (stored.get "schema") = true
  state : after.files.state = some (fileText host stored)
  anchor : after.anchor = some (fileText host (newAnchor host stored (some prior)))
  history : after.history = some (withAnchor host priorName prior disk ++
    [(name, some (fileText host (newAnchor host stored (some prior))))])

theorem digest_of_anchorBefore {disk : TaskDisk} {current prior : Json}
    (found : anchorBefore host id disk current = .ok prior) :
    prior.get "anchor_sha256" = .str (anchorDigest host prior) := by
  rw [anchorBefore, bind_eq_ok] at found
  obtain ⟨anchor, loads, rest⟩ := found
  cases anchor with
  | some anchor =>
      cases rest
      obtain ⟨_, _, _, intact, _⟩ := loadAnchor_eq_some.mp loads
      exact Json.equal_str.mp intact.digest
  | none =>
      obtain ⟨migrated, _, is⟩ := bind_eq_ok.mp rest
      cases is
      exact anchorDigest_newAnchor

theorem saved_of_saveLocked {disk after : TaskDisk} {current edited stored : Json} {expected : ℤ}
    {tick : ℕ} (valid : Valid host id current)
    (done : saveLocked host disk current edited expected (host.entropy.now tick) =
      .ok (stored, after)) :
    ∃ prior priorName name,
      Saved host id disk current expected stored prior priorName name after := by
  rw [saveLocked] at done
  simp only [bind_eq_ok, require_eq_ok, exists_const] at done
  obtain ⟨⟨migrated, stored'⟩, prepares, found, loads, priorName, priorPath, name, path, fresh,
    done⟩ := done
  cases done
  obtain ⟨updated, checked, records, prepared, storedIs⟩ := prepare_eq_ok prepares
  subst storedIs
  have idIs : (current.get "id").str?.getD [] = id := by
    rw [valid.id_]
    rfl
  rw [idIs] at loads
  have storedValid := prepared.valid
  rw [idIs] at storedValid
  have facts := valid_of_validateTask storedValid
  have versioned : TaskSchema.isVersioned ((storedTask host current checked expected
      (host.entropy.now tick)).get "schema") = true := by
    rw [TaskSchema.isVersioned, prepared.schema, Bool.or_true]
  have before : anchorBefore host id disk current =
      .ok (found.getD (newAnchor host migrated none)) := by
    rw [anchorBefore, loads, ok_bind]
    cases found with
    | some anchor => rfl
    | none =>
        change (migrate host current >>= _) = _
        rw [prepared.migrates]
        rfl
  obtain ⟨revision, revisionIs, _⟩ := valid.revision
  have here : revision = expected := by
    have same := prepared.here
    rw [revisionIs] at same
    exact Json.int_equal_int.mp same
  subst here
  obtain ⟨next, nextIs, low⟩ := facts.revision
  have nextEq : next = revision + 1 := Json.int.inj (nextIs.symm.trans prepared.revision)
  refine ⟨_, priorName, name, revisionIs, before, priorPath, path, ⟨facts.id_,
    plain_of_canonical facts.canonical, prepared.revision, nextEq ▸ low, ?_, _,
    digest_of_anchorBefore before, Host.plain_digest _⟩, prepared.plain, storedValid, versioned,
    rfl, rfl, rfl⟩
  rw [facts.integrity versioned]
  exact Host.plain_digest _

namespace Saved

variable {disk after : TaskDisk} {current stored prior : Json} {revision : ℤ}
  {priorName name : Text}

theorem ready_iff (saved : Saved host id disk current revision stored prior priorName name after) :
    Ready host id disk current ↔
      Rooted host id (withAnchor host priorName prior disk) prior revision := by
  constructor
  · rintro ⟨prior', name', revision', found, path, here, rooted⟩
    cases saved.prior_.symm.trans found
    cases saved.priorPath.symm.trans path
    cases saved.here.symm.trans here
    exact rooted
  · intro rooted
    exact ⟨prior, priorName, revision, saved.prior_, saved.priorPath, saved.here, rooted⟩

theorem loadAnchor_iff
    (saved : Saved host id disk current revision stored prior priorName name after)
    {required : Bool} {found : Json} : loadAnchor host id after required = .ok (some found) ↔
      found = newAnchor host stored (some prior) ∧ Ready host id disk current := by
  rw [saved.ready_iff]
  exact saved.follows.loadAnchor withAnchor_ne_nil saved.path saved.anchor saved.history

theorem matches_ (saved : Saved host id disk current revision stored prior priorName name after) :
    Matches (newAnchor host stored (some prior)) stored := by
  have state : (newAnchor host stored (some prior)).get "state_sha256" =
      stored.get "integrity_sha256" := get_sealed (by simp)
  constructor
  · rw [saved.follows.getRevision, saved.follows.revision_]
    exact Json.int_equal_int.mpr rfl
  · rw [state, (valid_of_validateTask saved.valid).integrity saved.versioned]
    exact Json.equal_str.mpr rfl

/-- A task can be loaded after a save exactly when the save was ready for it. -/
theorem load_iff (saved : Saved host id disk current revision stored prior priorName name after)
    (open_ : stored.get "state" ≠ .str "FINALIZE") {workspace : Json} :
    load host workspace id after = .ok stored ↔ Ready host id disk current := by
  rw [load_eq_ok]
  constructor
  · rintro ⟨_, _, _, _, anchored, _⟩
    obtain ⟨anchor, loads, _⟩ := anchored saved.versioned
    exact (saved.loadAnchor_iff.mp loads).2
  · intro ready
    refine ⟨_, saved.state, readJson_fileText saved.plain, saved.valid, fun _ => ?_, fun finished => ?_⟩
    · exact ⟨_, saved.loadAnchor_iff.mpr ⟨rfl, ready⟩, saved.matches_⟩
    · exact absurd (Json.equal_str.mp finished) open_

/-- A save keeps a task ready. -/
theorem ready (saved : Saved host id disk current revision stored prior priorName name after)
    (before : Ready host id disk current) : Ready host id after stored := by
  have found : anchorBefore host id after stored = .ok (newAnchor host stored (some prior)) := by
    rw [anchorBefore, saved.loadAnchor_iff.mpr ⟨rfl, before⟩, ok_bind]
    rfl
  have inside : withAnchor host name (newAnchor host stored (some prior)) after =
      withAnchor host priorName prior disk ++
        [(name, some (fileText host (newAnchor host stored (some prior))))] := by
    rw [withAnchor, saved.history]
    exact if_pos (by simp)
  refine ⟨_, name, revision + 1, found, saved.path, saved.follows.revision_, ?_⟩
  rw [inside]
  exact saved.follows.rooted withAnchor_ne_nil saved.path (saved.ready_iff.mp before)

/-- What is loaded after a save is what was saved. -/
theorem eq_of_load (saved : Saved host id disk current revision stored prior priorName name after)
    {workspace task : Json} (loads : load host workspace id after = .ok task) :
    task = stored ∧ Ready host id disk current := by
  obtain ⟨bytes, state, reads, _, anchored, _⟩ := load_eq_ok.mp loads
  rw [saved.state, Option.some.injEq] at state
  rw [← state, readJson_fileText saved.plain, Option.some.injEq] at reads
  subst reads
  obtain ⟨anchor, found, _⟩ := anchored saved.versioned
  exact ⟨rfl, (saved.loadAnchor_iff.mp found).2⟩

end Saved

/-! ## Runs -/

/-- Every call that succeeds loads the task and saves it. -/
theorem saved_of_perform {workspace returned : Json} {disk after : TaskDisk} {tick : ℕ}
    {request : Request} (done : perform host workspace id (host.entropy.now tick) disk request =
      .ok (returned, after)) :
    ∃ current, load host workspace id disk = .ok current ∧
      ∃ revision prior priorName name,
        Saved host id disk current revision returned prior priorName name after := by
  cases request with
  | save task expected =>
      simp only [perform, bind_eq_ok, require_eq_ok, exists_const] at done
      obtain ⟨_, current, loads, done⟩ := done
      obtain ⟨_, _, _, valid, _⟩ := load_eq_ok.mp loads
      exact ⟨current, loads, _, saved_of_saveLocked (valid_of_validateTask valid) done⟩
  | mutate edit expected allowActiveChild =>
      simp only [perform, bind_eq_ok, require_eq_ok, exists_const] at done
      obtain ⟨current, loads, _, _, _, _, _, edited, _, done⟩ := done
      obtain ⟨_, _, _, valid, _⟩ := load_eq_ok.mp loads
      obtain ⟨prior, priorName, name, saved⟩ :=
        saved_of_saveLocked (valid_of_validateTask valid) done
      -- The function may append to the ledger, which no anchor of the task depends on.
      exact ⟨current, loads, _, prior, priorName, name, { saved with }⟩

/-- Calls that succeed, one after another, each at its own time and in its own workspace:
the files before them, what the last one returned, and the files after them. -/
inductive Saves (host : Host) (id : Text) : TaskDisk → Json → TaskDisk → Prop
  | one {workspace returned : Json} {disk after : TaskDisk} {tick : ℕ} {request : Request} :
      perform host workspace id (host.entropy.now tick) disk request = .ok (returned, after) →
      Saves host id disk returned after
  | more {workspace earlier returned : Json} {disk middle after : TaskDisk} {tick : ℕ}
      {request : Request} : Saves host id disk earlier middle →
      perform host workspace id (host.entropy.now tick) middle request = .ok (returned, after) →
      Saves host id disk returned after

/-- The last save of a run, which was ready for a load if and only if the first one was. -/
theorem Saves.last {disk after : TaskDisk} {current returned : Json} {bytes : Bytes}
    (state : disk.files.state = some bytes) (reads : readJson host.floats bytes = some current)
    (saves : Saves host id disk returned after) :
    ∃ middle earlier revision prior priorName name,
      Saved host id middle earlier revision returned prior priorName name after ∧
        (Ready host id middle earlier ↔ Ready host id disk current) := by
  induction saves with
  | one done =>
      obtain ⟨loaded, loads, revision, prior, priorName, name, saved⟩ := saved_of_perform done
      obtain ⟨_, state', reads', _⟩ := load_eq_ok.mp loads
      cases state.symm.trans state'
      cases reads.symm.trans reads'
      exact ⟨_, current, revision, prior, priorName, name, saved, Iff.rfl⟩
  | more _ done ih =>
      obtain ⟨loaded, loads, revision, prior, priorName, name, saved⟩ := saved_of_perform done
      obtain ⟨_, _, _, _, _, _, earlier, same⟩ := ih state
      obtain ⟨rfl, ready⟩ := earlier.eq_of_load loads
      exact ⟨_, _, revision, prior, priorName, name, saved,
        fun _ => same.mp ready, fun _ => earlier.ready ready⟩

/-- A task that is saved can be loaded again, then and after all further saves, exactly when
its history was ready for the first of them. -/
theorem load_of_saves {workspace later current returned : Json} {disk after : TaskDisk}
    (loads : load host workspace id disk = .ok current)
    (saves : Saves host id disk returned after)
    (open_ : returned.get "state" ≠ .str "FINALIZE") :
    load host later id after = .ok returned ↔ Ready host id disk current := by
  obtain ⟨_, state, reads, _⟩ := load_eq_ok.mp loads
  obtain ⟨_, _, _, _, _, _, saved, same⟩ := saves.last state reads
  exact (saved.load_iff open_).trans same

/-! ## Tasks from before the anchors -/

/-- The baseline of a task that has no anchor starts its history at revision 0, so only a
task at this revision is ready. -/
theorem not_ready_of_unanchored {disk : TaskDisk} {current : Json} {revision : ℤ}
    (noAnchor : disk.anchor = none) (noHistory : disk.history = none)
    (here : current.get "revision" = .int revision) (positive : 0 < revision) :
    ¬ Ready host id disk current := by
  rintro ⟨prior, name, revision', found, path, here', origin, anchors, originIs, _, done, revisions,
    _⟩
  cases here.symm.trans here'
  have baseline : ∃ migrated, prior = newAnchor host migrated none := by
    rw [anchorBefore, loadAnchor, noAnchor] at found
    simp only [bind_eq_ok, require_eq_ok, exists_const] at found
    obtain ⟨_, ⟨_, is⟩, found⟩ := found
    cases is
    obtain ⟨migrated, _, is⟩ := bind_eq_ok.mp found
    cases is
    exact ⟨migrated, rfl⟩
  obtain ⟨migrated, rfl⟩ := baseline
  have start : (newAnchor host migrated none).get? "history_origin_revision" = some (.int 0) :=
    get?_newAnchor (by simp)
  have originZero : origin = 0 := by
    rw [originValue, Json.getD, start, Option.getD_some] at originIs
    exact (Option.some.inj originIs).symm
  have one : (byRevision anchors).length = 1 := by
    rw [(perm_byRevision anchors).length_eq, ← (mapM_eq_ok.mp done).length_eq,
      (perm_byName _).length_eq, withAnchor, noHistory]
    rfl
  have count := congrArg List.length revisions
  rw [List.length_map, length_range, one, originZero] at count
  omega

section Legacy

/-- A task of schema 2 at revision 1. -/
def legacyTask : Json := .obj (Fields.ofPairs
  [("schema", .int 2), ("id", .str "t-1"), ("title", .str "t"), ("mode", .str "read"),
    ("complexity", .str "S"), ("risk", .str "low"), ("state", .str "CREATED"),
    ("revision", .int 1), ("created", .str "2026-01-01T00:00:00+00:00"),
    ("updated", .str "2026-01-01T00:00:00+00:00"), ("precheck", .obj []), ("gates", .arr []),
    ("risks", .arr []), ("decisions", .arr []), ("child_history", .arr []),
    ("verification_evidence", .arr []), ("verification_epoch", .null), ("change_epoch", .int 0),
    ("final_audit_complete", .bool false), ("active_child", .null), ("previous_state", .null),
    ("transitions", .arr [])])

/-- SHA-256 of no bytes, of the task after its migration, of the task after a save, and of
the two anchors. -/
def legacyHost : Host := tableHost
  [(0, 0xe3b0c44298fc1c149afbf4c8996fb92427ae41e4649b934ca495991b7852b855),
    (242153210, 0x49d0f0301828fc4056e33c7a61dbcb9284f1fe33dea240abdbdea96542abf349),
    (535343872, 0xb1eca9ed6cc16a9956a55e2508a97571ffea06e8b2a626ca3bb7e29b1b1c5d03),
    (468115301, 0x29d309a9739470265ff8964762679bb623f89d2e0baaf1dbfa18b44f095d68a8),
    (476551241, 0xf802fe1e00da0a58aee02a3841d6f8a7c7385a9baf8c85a4f27715a1b2f13fc1)]

/-- The files of the task: it has no ledger, no anchor and no history. -/
def legacyDisk : TaskDisk := ⟨⟨none, none, some (fileText legacyHost legacyTask)⟩, none, none⟩

theorem load_legacyDisk (workspace : Json) :
    load legacyHost workspace "t-1" legacyDisk = .ok legacyTask := by
  refine load_eq_ok.mpr ⟨_, rfl, readJson_fileText (by decide +kernel), ?_, ?_, ?_⟩
  · decide +kernel
  · intro versioned
    exact absurd versioned (by decide +kernel)
  · intro finished
    exact absurd finished (by decide +kernel)

example : legacyTask.get? "integrity_sha256" = none := by
  decide +kernel

theorem saveLocked_legacyDisk :
    ∃ returned after, saveLocked legacyHost legacyDisk legacyTask legacyTask 1
        (legacyHost.entropy.now 0) = .ok (returned, after) ∧
      returned.get "state" ≠ .str "FINALIZE" := by
  have run : (saveLocked legacyHost legacyDisk legacyTask legacyTask 1
      (legacyHost.entropy.now 0)).toOption.any
        (fun result => result.1.get "state" ≠ .str "FINALIZE") = true := by decide +kernel
  cases is : saveLocked legacyHost legacyDisk legacyTask legacyTask 1 (legacyHost.entropy.now 0) with
  | error raised =>
      rw [is] at run
      cases run
  | ok result =>
      rw [is] at run
      exact ⟨result.1, result.2, rfl, of_decide_eq_true run⟩

theorem perform_legacyDisk :
    ∃ returned after, perform legacyHost (.obj []) "t-1" (legacyHost.entropy.now 0) legacyDisk
        (.save legacyTask 1) = .ok (returned, after) ∧
      returned.get "state" ≠ .str "FINALIZE" := by
  obtain ⟨returned, after, saves, open_⟩ := saveLocked_legacyDisk
  refine ⟨returned, after, ?_, open_⟩
  simp only [perform, bind_eq_ok, require_eq_ok, exists_const]
  exact ⟨by decide +kernel, legacyTask, load_legacyDisk _, saves⟩

theorem load_of_saves_legacyTask :
    ∃ returned after, Saves legacyHost "t-1" legacyDisk returned after ∧
      (load legacyHost (.obj []) "t-1" after = .ok returned ↔
        Ready legacyHost "t-1" legacyDisk legacyTask) := by
  obtain ⟨returned, after, performs, open_⟩ := perform_legacyDisk
  exact ⟨returned, after, .one performs,
    load_of_saves (load_legacyDisk (.obj [])) (.one performs) open_⟩

/-- Saving a task of schema 2 at revision 1 once leaves a task that cannot be loaded. -/
theorem legacyTask_not_loaded :
    ∃ returned after, load legacyHost (.obj []) "t-1" legacyDisk = .ok legacyTask ∧
      Saves legacyHost "t-1" legacyDisk returned after ∧
      returned.get "state" ≠ .str "FINALIZE" ∧
      load legacyHost (.obj []) "t-1" after ≠ .ok returned := by
  obtain ⟨returned, after, performs, open_⟩ := perform_legacyDisk
  refine ⟨returned, after, load_legacyDisk _, .one performs, open_, ?_⟩
  obtain ⟨current, loads, revision, prior, priorName, name, saved⟩ := saved_of_perform performs
  cases (load_legacyDisk _).symm.trans loads
  rw [Ne, saved.load_iff open_]
  exact @not_ready_of_unanchored _ _ _ _ 1 rfl rfl (by decide +kernel) (by decide)

end Legacy

end StateStore

end CarbonLab.Aegis
