import CarbonLab.Aegis.SaveLoad

/-!
# Rollback

The history of anchors is what tells the last saved task apart from any other: a state and
an anchor that are put in the place of the real ones must end in the same history.
-/

namespace CarbonLab.Aegis

namespace StateStore

variable {host : Host} {id : Text}

/-! ## New tasks -/

section

variable {title mode complexity risk time : Text}

/-- The fields of a new task. -/
def newFields (host : Host) (id title mode complexity risk time : Text) : List (Text × Json) :=
  [("schema", .int 4), ("id", .str id), ("title", .str title),
    ("mode", .str mode), ("complexity", .str complexity), ("risk", .str risk),
    ("state", .str "CREATED"), ("revision", .int 0), ("created", .str time),
    ("updated", .str time), ("precheck", .obj []),
    ("tdd", .obj (Fields.ofPairs TaskSchema.emptyTdd)), ("gates", .arr []), ("risks", .arr []),
    ("decisions", .arr []), ("child_history", .arr []), ("verification_evidence", .arr []),
    ("verification_epoch", .null), ("change_epoch", .int 0), ("final_audit_complete", .bool false),
    ("active_child", .null), ("previous_state", .null), ("transitions", .arr []),
    ("material_claim", .bool true), ("evidence_head", .null),
    ("evidence_set_digest", .str (host.sha256 [])), ("implementation_digest", .null),
    ("diff_digest", .null), ("falsification", .null), ("review_receipt", .null)]

theorem newTask_eq : newTask host id title mode complexity risk time =
    sealed host "integrity_sha256" (newFields host id title mode complexity risk time) := rfl

theorem unsealed_newFields :
    Unsealed "integrity_sha256" (newFields host id title mode complexity risk time) := by
  simp [Unsealed, newFields]

theorem nodup_newFields :
    ((newFields host id title mode complexity risk time).map (·.1)).Nodup := by
  simp [newFields]

theorem get?_newTask {key : Text} {value : Json}
    (member : (key, value) ∈ newFields host id title mode complexity risk time) :
    (newTask host id title mode complexity risk time).get? key = some value := by
  rw [newTask_eq]
  exact unsealed_newFields.get? nodup_newFields member

theorem get_newTask {key : Text} {value : Json}
    (member : (key, value) ∈ newFields host id title mode complexity risk time) :
    (newTask host id title mode complexity risk time).get key = value := by
  rw [Json.get, Json.getD, get?_newTask member, Option.getD_some]

/-- A new task is printed as if the surrogates in its title were merged. -/
theorem sameText_newFields :
    Fields.Related (Json.SameText host.floats) (newFields host id title mode complexity risk time)
      (newFields host id (mergeSurrogates title) mode complexity risk time) := by
  have same {key : Text} {value : Json} : key = key ∧ value.SameText host.floats value :=
    ⟨rfl, fun _ _ => rfl⟩
  refine .cons same (.cons same (.cons ⟨rfl, ?_⟩ ?_))
  · intro style level
    exact (stringText_mergeSurrogates title).symm
  · exact List.forall₂_same.mpr fun _ _ => same

theorem digest_newFields :
    host.digest (.obj (Fields.ofPairs (newFields host id title mode complexity risk time))) =
      host.digest (.obj (Fields.ofPairs
        (newFields host id (mergeSurrogates title) mode complexity risk time))) := by
  have same := Json.sameText_obj (@sameText_newFields host id title mode complexity risk time).ofPairs
  rw [Host.digest, Host.canonical_inj.mpr (same _ _), Host.digest]

/-- What `create` asks of its arguments. -/
structure Proper (id title mode complexity risk : Text) : Prop where
  canonical : isCanonicalName "-" id = true
  title_ : strip title ≠ []
  mode_ : mode ∈ TaskSchema.modes
  complexity_ : complexity ∈ TaskSchema.complexities
  risk_ : risk ∈ TaskSchema.severities

theorem Proper.plain (proper : Proper id title mode complexity risk)
    (timePlain : (Json.str time).Plain) :
    (newTask host id (mergeSurrogates title) mode complexity risk time).Plain := by
  have named {names : List Text} (plain : ∀ name ∈ names, mergeSurrogates name = name) {name : Text}
      (member : name ∈ names) : (Json.str name).Plain := Json.plain_str.mpr (plain name member)
  have modePlain := named (by simp [TaskSchema.modes]) proper.mode_
  have complexityPlain := named (by simp [TaskSchema.complexities]) proper.complexity_
  have riskPlain := named (by simp [TaskSchema.severities]) proper.risk_
  have titlePlain : (Json.str (mergeSurrogates title)).Plain :=
    Json.plain_str.mpr (mergeSurrogates_idem title)
  have empty : (Json.arr []).Plain := Json.plain_arr (by simp)
  rw [newTask_eq]
  refine unsealed_newFields.plain.mpr (Json.plain_ofPairs ?_)
  simp only [newFields, List.forall_mem_cons, mergeSurrogates_text, true_and, Json.plain_int,
    Json.plain_null, Json.plain_bool, empty, modePlain, complexityPlain, riskPlain, titlePlain,
    timePlain, plain_of_canonical proper.canonical]
  exact ⟨Json.plain_str.mpr (mergeSurrogates_text _), rfl, Json.plain_ofPairs plain_emptyTdd,
    Host.plain_sha256 _, by simp⟩

/-- The file of a new task is that of the task with merged surrogates in its title. -/
theorem fileText_newTask : fileText host (newTask host id title mode complexity risk time) =
    fileText host (newTask host id (mergeSurrogates title) mode complexity risk time) := by
  have fields := (@sameText_newFields host id title mode complexity risk time).ofPairs
  have same : (newTask host id title mode complexity risk time).SameText host.floats
      (newTask host id (mergeSurrogates title) mode complexity risk time) := by
    rw [newTask_eq, newTask_eq, sealed, sealed, digest_newFields]
    exact Json.sameText_obj (fields.set fun _ _ => rfl)
  rw [fileText, jsonLine, Json.dumps, same, fileText, jsonLine, Json.dumps]

/-- Merging surrogates leaves some ink. -/
theorem ink_mergeSurrogates {string : Text} (ink : ∃ letter ∈ string, isSpace letter = false) :
    ∃ letter ∈ mergeSurrogates string, isSpace letter = false := by
  obtain ⟨letter, member, dark⟩ := ink
  induction string using mergeSurrogates.induct with
  | case1 high low rest surrogates ih =>
      rw [mergeSurrogates, if_pos surrogates]
      refine ⟨joinSurrogates high low, List.mem_cons_self, ?_⟩
      simp only [isHigh, isLow, Bool.and_eq_true, decide_eq_true_eq] at surrogates
      have value : (joinSurrogates high low).val =
          0x10000 + (high.val - 0xd800) * 0x400 + (low.val - 0xdc00) := by
        rw [joinSurrogates, Fin.ofNat]
        exact Nat.mod_eq_of_lt (by omega)
      simp only [isSpace, value, Bool.or_eq_false_iff, Bool.and_eq_false_iff,
        decide_eq_false_iff_not]
      omega
  | case2 high low rest surrogates ih =>
      rw [mergeSurrogates, if_neg surrogates]
      rcases List.mem_cons.mp member with rfl | later
      · exact ⟨letter, List.mem_cons_self, dark⟩
      · obtain ⟨found, there, dark⟩ := ih later
        exact ⟨found, List.mem_cons_of_mem _ there, dark⟩
  | case3 short simple =>
      rcases short with _ | ⟨first, _ | ⟨second, rest⟩⟩
      · exact ⟨letter, member, dark⟩
      · exact ⟨letter, member, dark⟩
      · exact absurd rfl (simple first second rest)

theorem get?_newTask_ (key : String) (value : Json)
    (member : (text key, value) ∈ newFields host id title mode complexity risk time) :
    (newTask host id title mode complexity risk time).get? key = some value := get?_newTask member

theorem get_newTask_ (key : String) (value : Json)
    (member : (text key, value) ∈ newFields host id title mode complexity risk time) :
    (newTask host id title mode complexity risk time).get key = value := get_newTask member

theorem requireOneOf_newTask {key : String} (name : Text) {why : Text} {names : List Text}
    (member : (text key, Json.str name) ∈ newFields host id title mode complexity risk time)
    (named : name ∈ names) : TaskSchema.requireOneOf
      (newTask host id title mode complexity risk time) key names why = .ok () := by
  rw [TaskSchema.requireOneOf, get_newTask member, inSet, decide_eq_true named]
  rfl

theorem Proper.header (proper : Proper id title mode complexity risk) (timely : strip time ≠ []) :
    TaskSchema.validateHeader (newTask host id title mode complexity risk time) (some id) =
      .ok id := by
  have complete : TaskSchema.required.filter (fun field =>
      ((newTask host id title mode complexity risk time).get? field).isNone) = [] := by
    rw [List.filter_eq_nil_iff]
    intro field member
    have there : field ∈ (newFields host id title mode complexity risk time).map (·.1) := by
      revert field
      simp [TaskSchema.required, newFields]
    obtain ⟨⟨key, value⟩, inside, rfl⟩ := List.mem_map.mp there
    rw [get?_newTask inside]
    simp
  have named : TaskSchema.validateTaskId (.str id) = .ok id := if_pos proper.canonical
  simp only [TaskSchema.validateHeader, bind_eq_ok, require_eq_ok, exists_const]
  refine ⟨rfl, true, ?_, rfl, complete, ?_, id, ?_, ?_, (), ?_, (), ?_, (), ?_, (), ?_, ?_, ?_, ?_,
    ?_, ?_, ?_, rfl⟩
  · rw [get_newTask_ "schema" (.int 4) (by simp [newFields])]
    rfl
  · intro _
    rw [get?_newTask_ "tdd" (.obj (Fields.ofPairs TaskSchema.emptyTdd)) (by simp [newFields])]
    rfl
  · rw [get_newTask_ "id" (.str id) (by simp [newFields]), named]
  · simp
  · exact requireOneOf_newTask mode (by simp [newFields]) proper.mode_
  · exact requireOneOf_newTask complexity (by simp [newFields]) proper.complexity_
  · exact requireOneOf_newTask risk (by simp [newFields]) proper.risk_
  · exact requireOneOf_newTask "CREATED" (by simp [newFields]) (by decide)
  · rw [get_newTask_ "title" (.str title) (by simp [newFields])]
    exact isText_iff.mpr ⟨title, rfl, proper.title_⟩
  · rw [get_newTask_ "created" (.str time) (by simp [newFields])]
    exact isText_iff.mpr ⟨time, rfl, timely⟩
  · rw [get_newTask_ "updated" (.str time) (by simp [newFields])]
    exact isText_iff.mpr ⟨time, rfl, timely⟩
  · rw [get_newTask_ "revision" (.int 0) (by simp [newFields])]
    rfl
  · rw [get_newTask_ "change_epoch" (.int 0) (by simp [newFields])]
    rfl
  · rw [get_newTask_ "precheck" (.obj []) (by simp [newFields])]
    rfl

theorem validateReceipts_newTask : TaskSchema.validateReceipts host id
    (newTask host id title mode complexity risk time) = .ok () := by
  have digest : isSha256 (.str (host.sha256 [])) = true := by
    simp only [isSha256, Json.str?, Option.any_some, Bool.and_eq_true, decide_eq_true_eq,
      List.all_eq_true, isHexDigit]
    exact host.sha256_hex []
  simp only [TaskSchema.validateReceipts, bind_eq_ok]
  refine ⟨(), forM_eq_ok.mpr ?_, ?_⟩
  · have passes {key : String} (value : Json) {error : Raised}
        (member : (text key, value) ∈ newFields host id title mode complexity risk time)
        (proper : TaskSchema.nullOr value isSha256 = true) : require (TaskSchema.nullOr
          ((newTask host id title mode complexity risk time).get key) isSha256) error = .ok () := by
      rw [require_eq_ok, get_newTask member, proper]
    simp only [List.forall_mem_cons]
    refine ⟨passes .null (by simp [newFields]) rfl, passes .null (by simp [newFields]) rfl,
      passes (.str (host.sha256 [])) (by simp [newFields]) ?_, by simp⟩
    rw [TaskSchema.nullOr, digest, Bool.or_true]
  · rw [get_newTask_ "falsification" .null (by simp [newFields]),
      get_newTask_ "review_receipt" .null (by simp [newFields])]
    rfl

theorem requireList_newTask {key : String} (member : (text key, Json.arr []) ∈
    newFields host id title mode complexity risk time) :
    TaskSchema.requireList (newTask host id title mode complexity risk time) key = .ok [] := by
  rw [TaskSchema.requireList, get_newTask member]
  rfl

theorem validateLists_newTask : TaskSchema.validateLists
    (newTask host id title mode complexity risk time) = .ok () := by
  simp only [TaskSchema.validateLists]
  rw [requireList_newTask (by simp [newFields]), requireList_newTask (by simp [newFields]),
    requireList_newTask (by simp [newFields]), requireList_newTask (by simp [newFields]),
    requireList_newTask (by simp [newFields]), requireList_newTask (by simp [newFields]),
    get_newTask_ "verification_epoch" .null (by simp [newFields])]
  simp only [List.forM]
  rw [get?_newTask_ "final_audit_complete" (.bool false) (by simp [newFields]),
    get?_newTask_ "material_claim" (.bool true) (by simp [newFields])]
  rfl

/-- A new task is valid. -/
theorem Proper.valid (proper : Proper id title mode complexity risk) (timely : strip time ≠ []) :
    TaskSchema.validateTask host (newTask host id title mode complexity risk time) (some id) =
      .ok () := by
  have moves : TaskSchema.validateHistory (newTask host id title mode complexity risk time) =
      .ok () := by
    rw [TaskSchema.validateHistory, requireList_newTask (by simp [newFields]),
      get_newTask_ "state" (.str "CREATED") (by simp [newFields])]
    rfl
  have child : TaskSchema.validateActiveChild host
      (newTask host id title mode complexity risk time) = .ok () := by
    rw [TaskSchema.validateActiveChild, get_newTask_ "active_child" .null (by simp [newFields])]
    rfl
  have digest : (newTask host id title mode complexity risk time).get "integrity_sha256" =
      .str (TaskSchema.stateDigest host (newTask host id title mode complexity risk time)) := by
    rw [newTask_eq, TaskSchema.stateDigest, unsealed_newFields.erase]
    exact get_sealed_self
  rw [TaskSchema.validateTask, proper.header timely, ok_bind,
    get?_newTask_ "tdd" (.obj (Fields.ofPairs TaskSchema.emptyTdd)) (by simp [newFields])]
  simp only [bind_eq_ok, require_eq_ok]
  exact ⟨(), rfl, (), validateReceipts_newTask, (), validateLists_newTask, (), child, (), moves,
    fun _ => Json.equal_str.mpr digest⟩

/-! ## New files -/

/-- What `create` returns and leaves. -/
theorem create_eq_ok {task : Json} {disk : TaskDisk} {given : Text}
    (done : create host id given mode complexity risk time = .ok (task, disk)) :
    Proper id (strip given) mode complexity risk ∧
      task = newTask host id (strip given) mode complexity risk time ∧
      ∃ name, historyPath (newAnchor host task none) = .ok name ∧
        disk = ⟨⟨none, none, some (fileText host task)⟩,
          some (fileText host (newAnchor host task none)),
          some [(name, some (fileText host (newAnchor host task none)))]⟩ := by
  simp only [create, bind_eq_ok, require_eq_ok, exists_const] at done
  obtain ⟨filled, ⟨mode_, complexity_, risk_⟩, id', named, name, path, done⟩ := done
  cases done
  have canonical : isCanonicalName "-" id = true ∧ id = id' := by
    rw [TaskSchema.validateTaskId] at named
    simp only [Json.str?] at named
    split at named
    · next canonical =>
        cases named
        exact ⟨canonical, rfl⟩
    · cases named
  obtain ⟨canonical, rfl⟩ := canonical
  refine ⟨⟨canonical, ?_, mode_, complexity_, risk_⟩, rfl, name, path, rfl⟩
  exact strip_ne_nil.mpr (exists_ink_strip (strip_ne_nil.mp filled))

end

/-- A task that was created by the store and saved any number of times, with its files. -/
inductive Stored (host : Host) (id : Text) : Json → TaskDisk → Prop
  | created {title mode complexity risk : Text} {tick : ℕ} {task : Json} {disk : TaskDisk} :
      strip (host.entropy.now tick) ≠ [] →
      create host id title mode complexity risk (host.entropy.now tick) = .ok (task, disk) →
      Stored host id task.normalize disk
  | saved {workspace task returned : Json} {tick : ℕ} {disk after : TaskDisk} {request : Request} :
      Stored host id task disk →
      perform host workspace id (host.entropy.now tick) disk request = .ok (returned, after) →
      Stored host id returned after

/-- The files of a task agree with each other. -/
structure Agrees (host : Host) (id : Text) (task : Json) (disk : TaskDisk) : Prop where
  reads : ∃ bytes, disk.files.state = some bytes ∧ readJson host.floats bytes = some task
  valid : TaskSchema.validateTask host task (some id) = .ok ()
  versioned : TaskSchema.isVersioned (task.get "schema") = true
  anchored : ∃ anchor, loadAnchor host id disk true = .ok (some anchor) ∧ Matches anchor task
  history : ∃ entries, disk.history = some entries ∧ entries ≠ []
  ready : Ready host id disk task

section

variable {title mode complexity risk time : Text} {task : Json} {disk : TaskDisk}

/-- The first anchor of a task is accepted, with a history that holds only itself. -/
theorem first_anchor {name : Text} (id_ : task.get "id" = .str id) (idPlain : (Json.str id).Plain)
    (revision : task.get "revision" = .int 0) (state : (task.get "integrity_sha256").Plain)
    (path : historyPath (newAnchor host task none) = .ok name)
    (anchorIs : disk.anchor = some (fileText host (newAnchor host task none)))
    (historyIs : disk.history = some [(name, some (fileText host (newAnchor host task none)))]) :
    loadAnchor host id disk true = .ok (some (newAnchor host task none)) ∧
      Rooted host id [(name, some (fileText host (newAnchor host task none)))]
        (newAnchor host task none) 0 := by
  have revision_ : (newAnchor host task none).get "revision" = .int 0 :=
    (get_sealed (by simp)).trans revision
  have task_ : (newAnchor host task none).get "task_id" = .str id :=
    (get_sealed (by simp)).trans id_
  have origin_ : (newAnchor host task none).get? "history_origin_revision" = some (.int 0) :=
    get?_newAnchor (by simp)
  have number : (newAnchor host task none).get? "revision" = some (task.get "revision") :=
    get?_newAnchor (by simp)
  have schema : inNumbers ((newAnchor host task none).get "schema") [1, 2] = .ok true := by
    rw [schema_newAnchor]
    rfl
  have plain : (newAnchor host task none).Plain := by
    refine unsealed_anchorFields.plain.mpr (Json.plain_ofPairs ?_)
    simp only [anchorFields, List.forall_mem_cons, mergeSurrogates_text, true_and, Option.map_none,
      Option.getD_none, id_, idPlain, revision, state, Json.plain_int, Json.plain_null]
    simp
  have long : (anchorDigest host (newAnchor host task none)).length = 64 := Host.digest_length _
  have nameIs : name = historyName 0 (anchorDigest host (newAnchor host task none)) := by
    rw [historyPath, revision_, anchorDigest_newAnchor] at path
    simp only [Json.int?, Json.str?, bind_eq_ok, require_eq_ok, exists_const] at path
    exact (Except.ok.inj path.2).symm
  have entry : readEntry host id (name, some (fileText host (newAnchor host task none))) =
      .ok (0, newAnchor host task none) := by
    simp only [readEntry, readJson_fileText plain, bind_eq_ok, require_eq_ok, exists_const]
    refine ⟨nameIs ▸ hasJsonSuffix_historyName _ long, rfl, true, schema, rfl, ?_, ?_⟩
    · rw [task_]
      exact Json.equal_str.mpr rfl
    · rw [revision_, anchorDigest_newAnchor]
      simp only [Json.int?, Json.str?, bind_eq_ok, require_eq_ok, exists_const]
      exact ⟨⟨le_rfl, long, trivial, nameIs⟩, rfl⟩
  have reads : (byName [(name, some (fileText host (newAnchor host task none)))]).mapM
      (readEntry host id) = .ok [(0, newAnchor host task none)] :=
    mapM_eq_ok.mpr (.cons entry .nil)
  have last : (Json.str (anchorDigest host (newAnchor host task none))).equal
      (.str (anchorDigest host (newAnchor host task none))) = true := Json.equal_str.mpr rfl
  constructor
  · refine loadAnchor_eq_some.mpr ⟨_, anchorIs, readJson_fileText plain, ⟨rfl, schema, ?_, ?_, ?_⟩, ?_⟩
    · rw [task_]
      exact Json.equal_str.mpr rfl
    · exact Json.equal_str.mpr anchorDigest_newAnchor
    · intro _
      rw [Json.get, Json.getD, origin_, Json.getD, number, Option.getD_some, revision]
      exact ⟨0, rfl, le_rfl, 0, rfl, le_rfl⟩
    · rw [historyIs]
      refine (validateAnchorHistory_some (by simp)).mpr ⟨_, reads, validateAnchors_eq_ok.mpr
        ⟨by simp [byRevision], 0, ?_, 0, ?_, rfl, rfl, ?_⟩⟩
      · rw [originOf, Json.getD, origin_]
        rfl
      · rw [Json.getD, number, Option.getD_some, revision]
        rfl
      · simp only [byRevision, List.insertionSort_cons, List.insertionSort_nil,
          List.orderedInsert_nil, List.getLast?_singleton, Option.any_some, anchorDigest_newAnchor]
        exact last
  · refine ⟨0, _, ?_, le_rfl, reads, rfl, rfl, ?_⟩
    · rw [originValue, Json.getD, origin_]
      rfl
    · simp only [byRevision, List.insertionSort_cons, List.insertionSort_nil,
        List.orderedInsert_nil, List.getLast?_singleton, Option.any_some, anchorDigest_newAnchor]
      exact last

theorem newAnchor_newTask : newAnchor host (newTask host id title mode complexity risk time) none =
    newAnchor host (newTask host id (mergeSurrogates title) mode complexity risk time) none := by
  have digest (title : Text) : (newTask host id title mode complexity risk time).get
      "integrity_sha256" =
        .str (host.digest (.obj (Fields.ofPairs (newFields host id title mode complexity risk time)))) := by
    rw [newTask_eq]
    exact get_sealed_self
  have fields : anchorFields (newTask host id title mode complexity risk time) none =
      anchorFields (newTask host id (mergeSurrogates title) mode complexity risk time) none := by
    simp only [anchorFields]
    rw [digest, digest, digest_newFields, get_newTask_ "id" (.str id) (by simp [newFields]),
      get_newTask_ "id" (.str id) (by simp [newFields]),
      get_newTask_ "revision" (.int 0) (by simp [newFields]),
      get_newTask_ "revision" (.int 0) (by simp [newFields])]
  rw [newAnchor, fields, newAnchor]

/-- The files that `create` leaves agree with each other. -/
theorem agrees_of_create {given : Text} {tick : ℕ} (timely : strip (host.entropy.now tick) ≠ [])
    (done : create host id given mode complexity risk (host.entropy.now tick) = .ok (task, disk)) :
    Agrees host id task.normalize disk := by
  obtain ⟨given_, rfl, name, path, rfl⟩ := create_eq_ok done
  have proper : Proper id (mergeSurrogates (strip given)) mode complexity risk :=
    { given_ with title_ := strip_ne_nil.mpr (ink_mergeSurrogates (strip_ne_nil.mp given_.title_)) }
  have plain : (newTask host id (mergeSurrogates (strip given)) mode complexity risk
      (host.entropy.now tick)).Plain := given_.plain (Host.plain_now tick)
  have valid := @Proper.valid host _ _ _ _ _ _ proper timely
  have facts := valid_of_validateTask valid
  have schema := @get_newTask_ host id (mergeSurrogates (strip given)) mode complexity risk
    (host.entropy.now tick) "schema" (.int 4) (by simp [newFields])
  have versioned : TaskSchema.isVersioned ((newTask host id (mergeSurrogates (strip given)) mode
      complexity risk (host.entropy.now tick)).get "schema") = true := by
    rw [schema]
    rfl
  have revision := @get_newTask_ host id (mergeSurrogates (strip given)) mode complexity risk
    (host.entropy.now tick) "revision" (.int 0) (by simp [newFields])
  -- The surrogates in the title make no difference to the files.
  have same : (newTask host id (strip given) mode complexity risk (host.entropy.now tick)).normalize =
      newTask host id (mergeSurrogates (strip given)) mode complexity risk
        (host.entropy.now tick) := by
    have reads := @readJson_jsonLine host.floats .indented
      (newTask host id (strip given) mode complexity risk (host.entropy.now tick))
    rw [← fileText, fileText_newTask, readJson_fileText plain, Option.some.injEq] at reads
    exact reads.symm
  rw [newAnchor_newTask] at path
  rw [same, fileText_newTask, newAnchor_newTask]
  generalize newTask host id (mergeSurrogates (strip given)) mode complexity risk
    (host.entropy.now tick) = first at *
  have digestPlain : (first.get "integrity_sha256").Plain := by
    rw [facts.integrity versioned]
    exact Host.plain_digest _
  obtain ⟨loads, rooted⟩ := @first_anchor host id first ⟨⟨none, none, some (fileText host first)⟩,
    some (fileText host (newAnchor host first none)),
    some [(name, some (fileText host (newAnchor host first none)))]⟩ name facts.id_
    (plain_of_canonical facts.canonical) revision digestPlain path rfl rfl
  have anchorRevision : (newAnchor host first none).get "revision" = first.get "revision" :=
    get_sealed (by simp)
  have anchorState : (newAnchor host first none).get "state_sha256" =
      first.get "integrity_sha256" := get_sealed (by simp)
  refine ⟨⟨_, rfl, readJson_fileText plain⟩, valid, versioned, ⟨_, loads, ?_, ?_⟩,
    ⟨_, rfl, by simp⟩, newAnchor host first none, name, 0, ?_, path, revision, ?_⟩
  · rw [anchorRevision, revision]
    exact Json.int_equal_int.mpr rfl
  · rw [anchorState, facts.integrity versioned]
    exact Json.equal_str.mpr rfl
  · rw [anchorBefore, versioned, loads, ok_bind]
    rfl
  · have inside : withAnchor host name (newAnchor host first none) ⟨⟨none, none,
        some (fileText host first)⟩, some (fileText host (newAnchor host first none)),
        some [(name, some (fileText host (newAnchor host first none)))]⟩ =
          [(name, some (fileText host (newAnchor host first none)))] := if_pos (by simp)
    rw [inside]
    exact rooted

theorem stored_agrees (stored : Stored host id task disk) : Agrees host id task disk := by
  induction stored with
  | created timely done => exact agrees_of_create timely done
  | saved _ done ih =>
      obtain ⟨current, loads, revision, prior, priorName, name, saved⟩ := saved_of_perform done
      obtain ⟨bytes, state, reads, _⟩ := load_eq_ok.mp loads
      obtain ⟨bytes', state', reads'⟩ := ih.reads
      cases state.symm.trans state'
      cases reads.symm.trans reads'
      exact {
        reads := ⟨_, saved.state, readJson_fileText saved.plain⟩
        valid := saved.valid
        versioned := saved.versioned
        anchored := ⟨_, saved.loadAnchor_iff.mpr ⟨rfl, ih.ready⟩, saved.matches_⟩
        history := ⟨_, saved.history, by simp⟩
        ready := saved.ready ih.ready }

end

/-! ## Substituted files -/

/-- The files of a task with others in the place of its state and its anchor. -/
def substituted (disk : TaskDisk) (state anchor : Option Bytes) : TaskDisk :=
  { disk with files := { disk.files with state := state }, anchor := anchor }

/-- The values in some files, without the digest that they carry. -/
def bodies (host : Host) (key : Text) (files : List (Option Bytes)) : Set Json :=
  {body | ∃ bytes value, some bytes ∈ files ∧ readJson host.floats bytes = some value ∧
    body = value.erase key}

/-- The state is a task of schema 2, which is loaded without a look at its anchor. -/
def Unanchored (host : Host) (workspace : Json) (id : Text) (files : TaskFiles) : Prop :=
  ∃ bytes task, files.state = some bytes ∧ readJson host.floats bytes = some task ∧
    TaskSchema.isVersioned (task.get "schema") = false ∧
    TaskSchema.validateTask host task (some id) = .ok () ∧
    ((task.get "state").equal (.str "FINALIZE") = true →
      validateFinished host workspace id files task = .ok ())

/-- Two anchors that are accepted with one history are the same but for their digests. -/
theorem digest_eq_of_loadAnchor {disk other : TaskDisk} {anchor found : Json}
    (same : other.history = disk.history) (filled : ∃ entries, disk.history = some entries ∧ entries ≠ [])
    (real : loadAnchor host id disk true = .ok (some anchor))
    (loads : loadAnchor host id other true = .ok (some found)) :
    anchorDigest host found = anchorDigest host anchor := by
  obtain ⟨entries, historyIs, filled⟩ := filled
  obtain ⟨_, _, _, intact, valid⟩ := loadAnchor_eq_some.mp real
  obtain ⟨_, _, _, intact', valid'⟩ := loadAnchor_eq_some.mp loads
  rw [historyIs] at valid
  rw [same, historyIs] at valid'
  obtain ⟨anchors, reads, valid⟩ := (validateAnchorHistory_some filled).mp valid
  obtain ⟨anchors', reads', valid'⟩ := (validateAnchorHistory_some filled).mp valid'
  cases reads.symm.trans reads'
  obtain ⟨_, _, _, _, _, _, _, last⟩ := validateAnchors_eq_ok.mp valid
  obtain ⟨_, _, _, _, _, _, _, last'⟩ := validateAnchors_eq_ok.mp valid'
  rw [Json.equal_str.mp intact.digest] at last
  rw [Json.equal_str.mp intact'.digest] at last'
  cases is : (byRevision anchors).getLast? with
  | none =>
      rw [is] at last
      cases last
  | some end_ =>
      rw [is] at last last'
      simp only [Option.any_some, Json.equal_str] at last last'
      exact Json.str.inj (last'.symm.trans last)

/-- A state that matches an anchor carries the digest that the anchor names. -/
theorem Matches.digest {anchor task : Json} (matches_ : Matches anchor task)
    (valid : Valid host id task) (versioned : TaskSchema.isVersioned (task.get "schema") = true) :
    anchor.get "state_sha256" = .str (TaskSchema.stateDigest host task) := by
  have same := matches_.2
  rw [valid.integrity versioned] at same
  exact Json.equal_str.mp same

/-- Valid tasks with the same digest are the same. -/
theorem eq_of_stateDigest {first second : Json} {bytes bytes' : Bytes}
    (reads : readJson host.floats bytes = some first)
    (reads' : readJson host.floats bytes' = some second)
    (left : Valid host id first) (right : Valid host id second)
    (versioned : TaskSchema.isVersioned (first.get "schema") = true)
    (versioned' : TaskSchema.isVersioned (second.get "schema") = true)
    (same : TaskSchema.stateDigest host first = TaskSchema.stateDigest host second)
    (body : first.erase "integrity_sha256" = second.erase "integrity_sha256") : first = second := by
  obtain ⟨fields, fieldsIs⟩ := Option.isSome_iff_exists.mp left.object
  obtain ⟨fields', fieldsIs'⟩ := Option.isSome_iff_exists.mp right.object
  obtain rfl := Json.obj?_eq_some.mp fieldsIs
  obtain rfl := Json.obj?_eq_some.mp fieldsIs'
  refine congrArg Json.obj (Json.eq_of_erase_eq (ordered_of_readJson reads)
    (ordered_of_readJson reads') body ?_)
  have stored := left.integrity versioned
  have stored' := right.integrity versioned'
  rw [Json.get?_of_get_ne_null (by rw [stored]; simp), Json.get?_of_get_ne_null
    (by rw [stored']; simp), stored, stored', same]

/-- A state and an anchor in the place of the real ones are loaded as the last saved task or
not at all, exactly when the state is no task of schema 2. -/
theorem load_substituted {workspace task : Json} {disk : TaskDisk} {state anchor : Option Bytes}
    (stored : Stored host id task disk)
    (apart : Set.InjOn host.digest (bodies host "integrity_sha256" [disk.files.state, state] ∪
      bodies host "anchor_sha256" [disk.anchor, anchor])) :
    (∀ found, load host workspace id (substituted disk state anchor) = .ok found → found = task) ↔
      ¬ Unanchored host workspace id (substituted disk state anchor).files := by
  have agrees := stored_agrees stored
  constructor
  · rintro only ⟨bytes, old, state, reads, unversioned, valid, finished⟩
    have loads : load host workspace id (substituted disk _ anchor) = .ok old :=
      load_eq_ok.mpr ⟨bytes, state, reads, valid,
        fun versioned => absurd (unversioned.symm.trans versioned) (by simp), finished⟩
    have versioned := agrees.versioned
    rw [← only old loads, unversioned] at versioned
    cases versioned
  · intro anchored found loads
    obtain ⟨bytes, stateIs, reads, valid, matched, finished⟩ := load_eq_ok.mp loads
    have versioned : TaskSchema.isVersioned (found.get "schema") = true := by
      by_contra old
      exact anchored ⟨bytes, found, stateIs, reads, Bool.eq_false_of_not_eq_true old, valid, finished⟩
    obtain ⟨real, realLoads, realMatches⟩ := agrees.anchored
    obtain ⟨forged, forgedLoads, forgedMatches⟩ := matched versioned
    have digests := digest_eq_of_loadAnchor
      (show (substituted disk state anchor).history = disk.history from rfl) agrees.history
      realLoads forgedLoads
    obtain ⟨realBytes, realIs, realReads, _⟩ := loadAnchor_eq_some.mp realLoads
    obtain ⟨forgedBytes, forgedIs, forgedReads, _⟩ := loadAnchor_eq_some.mp forgedLoads
    obtain ⟨bytes', stateIs', reads'⟩ := agrees.reads
    have forgedBody : forged.erase "anchor_sha256" = real.erase "anchor_sha256" := by
      refine apart (Or.inr ⟨forgedBytes, forged, ?_, forgedReads, rfl⟩)
        (Or.inr ⟨realBytes, real, ?_, realReads, rfl⟩) digests
      · rw [← show anchor = some forgedBytes from forgedIs]
        simp
      · rw [← realIs]
        simp
    have facts := valid_of_validateTask valid
    have facts' := valid_of_validateTask agrees.valid
    have states : TaskSchema.stateDigest host found = TaskSchema.stateDigest host task := by
      have names := Json.get_erase forged (show text "anchor_sha256" ≠ text "state_sha256" by simp)
      rw [forgedBody, Json.get_erase real (by simp)] at names
      rw [realMatches.digest facts' agrees.versioned, forgedMatches.digest facts versioned] at names
      exact (Json.str.inj names).symm
    have body : found.erase "integrity_sha256" = task.erase "integrity_sha256" := by
      refine apart (Or.inl ⟨bytes, found, ?_, reads, rfl⟩) (Or.inl ⟨bytes', task, ?_, reads', rfl⟩)
        states
      · rw [← show state = some bytes from stateIs]
        simp
      · rw [← stateIs']
        simp
    exact eq_of_stateDigest reads reads' facts facts' versioned agrees.versioned states body

section Downgrade

/-- SHA-256 of no bytes, of a new task, of its anchor and of a task of schema 2. -/
def downgradeHost : Host := tableHost
  [(0, 0xe3b0c44298fc1c149afbf4c8996fb92427ae41e4649b934ca495991b7852b855),
    (948962555, 0x5aa47f2532067c926cca89abf9e61fb2e42960fefb060b823e9c93eaae6469b7),
    (895054216, 0x45c55625ab2741631a9311ccaf6ff65aef5b9133c544a069232c38f5532de139),
    (319150539, 0xa151f484ff68cba54fb9f35ba4883e4278e0b5de4d650956097e2ca86e517cbe)]

/-- A new task. -/
def downgradeTask : Json :=
  newTask downgradeHost "t-1" "t" "read" "S" "low" (downgradeHost.entropy.now 0)

/-- Its anchor. -/
def downgradeAnchor : Json := newAnchor downgradeHost downgradeTask none

/-- Its files. -/
def downgradeDisk : TaskDisk :=
  ⟨⟨none, none, some (fileText downgradeHost downgradeTask)⟩,
    some (fileText downgradeHost downgradeAnchor),
    some [(historyName 0 (anchorDigest downgradeHost downgradeAnchor),
      some (fileText downgradeHost downgradeAnchor))]⟩

/-- Its files with a task of schema 2 in the place of the state. -/
def downgraded : TaskDisk :=
  substituted downgradeDisk (some (fileText downgradeHost legacyTask)) downgradeDisk.anchor

theorem plain_downgradeTask : downgradeTask.Plain := by decide +kernel

theorem plain_downgradeAnchor : downgradeAnchor.Plain := by decide +kernel

theorem plain_legacyTask : legacyTask.Plain := by decide +kernel

example : (legacyTask.get "schema").equal (.int 2) = true := by decide +kernel

theorem stored_downgradeDisk : Stored downgradeHost "t-1" downgradeTask downgradeDisk := by
  have path : historyPath downgradeAnchor =
      .ok (historyName 0 (anchorDigest downgradeHost downgradeAnchor)) := by
    have revision : downgradeAnchor.get "revision" = .int 0 := by decide +kernel
    have digest : downgradeAnchor.get "anchor_sha256" =
      .str (anchorDigest downgradeHost downgradeAnchor) := anchorDigest_newAnchor
    rw [historyPath, revision, digest]
    simp only [Json.int?, Json.str?, bind_eq_ok, require_eq_ok, exists_const]
    exact ⟨⟨le_rfl, Host.digest_length _⟩, rfl⟩
  have creates : create downgradeHost "t-1" "t" "read" "S" "low" (downgradeHost.entropy.now 0) =
      .ok (downgradeTask, downgradeDisk) := by
    simp only [create, bind_eq_ok, require_eq_ok, exists_const]
    exact ⟨by decide +kernel, by decide +kernel, "t-1", by decide +kernel, _, path, rfl⟩
  have stored := Stored.created (by decide +kernel) creates
  rw [plain_downgradeTask] at stored
  exact stored

theorem apart_downgraded : Set.InjOn downgradeHost.digest
    (bodies downgradeHost "integrity_sha256" [downgradeDisk.files.state, downgraded.files.state] ∪
      bodies downgradeHost "anchor_sha256" [downgradeDisk.anchor, downgraded.anchor]) := by
  have members : bodies downgradeHost "integrity_sha256"
        [downgradeDisk.files.state, downgraded.files.state] ∪
      bodies downgradeHost "anchor_sha256" [downgradeDisk.anchor, downgraded.anchor] ⊆
      {downgradeTask.erase "integrity_sha256", legacyTask.erase "integrity_sha256",
        downgradeAnchor.erase "anchor_sha256"} := by
    rintro body (⟨bytes, value, member, reads, rfl⟩ | ⟨bytes, value, member, reads, rfl⟩)
    · simp only [downgradeDisk, downgraded, substituted, List.mem_cons, Option.some.injEq,
        List.not_mem_nil, or_false] at member
      rcases member with rfl | rfl
      · rw [readJson_fileText plain_downgradeTask, Option.some.injEq] at reads
        exact Or.inl (reads ▸ rfl)
      · rw [readJson_fileText plain_legacyTask, Option.some.injEq] at reads
        exact Or.inr (Or.inl (reads ▸ rfl))
    · simp only [downgradeDisk, downgraded, substituted, List.mem_cons, Option.some.injEq,
        List.not_mem_nil, or_false, or_self] at member
      subst member
      rw [readJson_fileText plain_downgradeAnchor, Option.some.injEq] at reads
      exact Or.inr (Or.inr (reads ▸ rfl))
  have states : downgradeHost.digest (downgradeTask.erase "integrity_sha256") ≠
      downgradeHost.digest (legacyTask.erase "integrity_sha256") := by decide +kernel
  have fresh : downgradeHost.digest (downgradeTask.erase "integrity_sha256") ≠
      downgradeHost.digest (downgradeAnchor.erase "anchor_sha256") := by decide +kernel
  have legacy : downgradeHost.digest (legacyTask.erase "integrity_sha256") ≠
      downgradeHost.digest (downgradeAnchor.erase "anchor_sha256") := by decide +kernel
  refine Set.InjOn.mono members ?_
  rintro first (rfl | rfl | rfl) second (rfl | rfl | rfl) same
  · rfl
  · exact absurd same states
  · exact absurd same fresh
  · exact absurd same.symm states
  · rfl
  · exact absurd same legacy
  · exact absurd same.symm fresh
  · exact absurd same.symm legacy
  · rfl

theorem load_substituted_legacyTask :
    (∀ found, load downgradeHost (.obj []) "t-1" downgraded = .ok found → found = downgradeTask) ↔
      ¬ Unanchored downgradeHost (.obj []) "t-1" downgraded.files :=
  load_substituted stored_downgradeDisk apart_downgraded

/-- A task of schema 2 in the place of a new task is loaded. -/
theorem legacyTask_loaded : Stored downgradeHost "t-1" downgradeTask downgradeDisk ∧
    Set.InjOn downgradeHost.digest (bodies downgradeHost "integrity_sha256"
        [downgradeDisk.files.state, downgraded.files.state] ∪
      bodies downgradeHost "anchor_sha256" [downgradeDisk.anchor, downgraded.anchor]) ∧
    load downgradeHost (.obj []) "t-1" downgraded = .ok legacyTask ∧
    legacyTask ≠ downgradeTask := by
  refine ⟨stored_downgradeDisk, apart_downgraded, load_eq_ok.mpr ⟨_, rfl,
    readJson_fileText plain_legacyTask, ?_, ?_, ?_⟩, by decide +kernel⟩
  · decide +kernel
  · intro versioned
    exact absurd versioned (by decide +kernel)
  · intro finished
    exact absurd finished (by decide +kernel)

end Downgrade

end StateStore

end CarbonLab.Aegis
