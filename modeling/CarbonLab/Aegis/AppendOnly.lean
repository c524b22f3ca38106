import CarbonLab.Aegis.SaveLoad

/-!
# What no save changes

Whatever function edits a task, `_validate_append_only` and `validate_task` let only such
edits through that continue the task's history.  One save keeps it up to `==`, and so does
every run of saves.
-/

namespace CarbonLab.Aegis

namespace StateStore

variable {host : Host} {id : Text}

/-! ## Lists that continue others -/

/-- A list starts with the items of another one. -/
def Extends (before after : List Json) : Prop :=
  Json.equalItems (after.take before.length) before = true

namespace Extends

variable {first second third : List Json}

theorem length_le (extends_ : Extends first second) : first.length ≤ second.length := by
  have count := (Json.equalItems_iff.mp extends_).length_eq
  rw [List.length_take] at count
  omega

theorem trans (left : Extends first second) (right : Extends second third) :
    Extends first third := by
  have le := left.length_le
  rw [Extends, Json.equalItems_iff] at left right ⊢
  have shorter := List.forall₂_take first.length right
  rw [List.take_take, min_eq_left le] at shorter
  exact Json.forall₂_trans (fun _ _ _ _ => Json.Alike.trans) shorter left

end Extends

/-- What an `extends_` check says. -/
theorem extends_eq_true {before : List Json} {after : Json}
    (passes : extends_ before after = .ok true) :
    ∃ items, after = .arr items ∧ Extends before items := by
  cases after with
  | arr items => exact ⟨items, rfl, Except.ok.inj passes⟩
  | str string => cases passes
  | _ => cases passes

/-! ## Cycles -/

/-- The events of a cycle. -/
def eventsOf (cycle : Json) : List Json := (listD cycle "events").arr?.getD []

/-- A cycle that continues another one. -/
structure CycleKept (old new : Json) : Prop where
  identity : ∀ field ∈ [text "schema", "task_id", "cycle_id", "mode", "remediation",
      "discovered_epoch", "designed_at_revision", "test_contract_digest", "oracle_digest",
      "baseline_epoch"], (new.get field).equal (old.get field) = true
  events : Extends (eventsOf old) (eventsOf new)
  ended : inSet (old.get "status") ["TDD_CYCLE_ABORTED", "TDD_CYCLE_COMPLETE"] = .ok true →
    new.equal old = true

theorem cycleKept_of_validate {old new : Json} (valid : validateCycleChange old new = .ok ()) :
    CycleKept old new := by
  simp only [validateCycleChange, bind_eq_ok, require_eq_ok, exists_const] at valid
  obtain ⟨_, identity, rfl, _, events, rfl, ended, endedIs, same⟩ := valid
  obtain ⟨items, itemsIs, extends_⟩ := extends_eq_true events
  refine ⟨fun field member => ?_, ?_, fun terminal => ?_⟩
  · have here := every_eq_true.mp identity field member
    obtain ⟨value, fetched, is⟩ := bind_eq_ok.mp here
    obtain ⟨_, rfl⟩ := fetch_eq_ok.mp fetched
    exact Except.ok.inj is
  · rw [eventsOf, eventsOf, itemsIs]
    exact extends_
  · cases endedIs.symm.trans terminal
    exact same rfl

theorem CycleKept.trans {first second third : Json} (left : CycleKept first second)
    (right : CycleKept second third) : CycleKept first third where
  identity field member := Json.equal_trans (right.identity field member) (left.identity field member)
  events := left.events.trans right.events
  ended terminal := by
    have same := left.ended terminal
    obtain ⟨name, _, is⟩ := inSet_eq_true.mp terminal
    have status := Json.get_equal same "status"
    rw [is, Json.alike_str] at status
    exact Json.equal_trans (right.ended (by rw [status, ← is]; exact terminal)) same

/-! ## Entries with identifiers -/

/-- Entries with canonical identifiers, no two of them the same. -/
structure Named (entries : List Json) : Prop where
  named : ∀ entry ∈ entries, ∃ name, entry.get "id" = .str name ∧ isRecordId name = true
  apart : (entries.map (·.get "id")).Nodup

theorem named_of_uniqueIds {entries : List Json} {label : Text}
    (unique : TaskSchema.uniqueIds entries label = .ok ()) : Named entries := by
  simp only [TaskSchema.uniqueIds, bind_eq_ok, require_eq_ok, exists_const] at unique
  obtain ⟨ids, fetched, canonical, _, distinct_, rfl⟩ := unique
  have idsIs : ids = entries.map (·.get "id") :=
    eq_map_of_mapM (fun _ _ here => (fetch_eq_ok.mp here).2.symm) fetched
  subst idsIs
  constructor
  · intro entry member
    have passes := List.all_eq_true.mp canonical _ (List.mem_map_of_mem member)
    cases is : entry.get "id" with
    | str name =>
        rw [is] at passes
        exact ⟨name, rfl, passes⟩
    | _ =>
        rw [is] at passes
        cases passes
  · obtain ⟨_, _, apart⟩ := bind_eq_ok.mp distinct_
    refine (allDistinct_iff.mp (Except.ok.inj apart)).imp_of_mem ?_
    intro first second member _ differs same
    have passes := List.all_eq_true.mp canonical first member
    rw [← same] at differs
    cases first with
    | str name =>
        exact differs (Json.alike_self _)
    | _ => cases passes

theorem isRecordId_ascii {name : Text} (canonical : isRecordId name = true) :
    ∀ letter ∈ name, letter.val < 128 := by
  cases name with
  | nil => cases canonical
  | cons first rest =>
      simp only [isRecordId, Bool.and_eq_true, List.all_eq_true, Bool.or_eq_true, decide_eq_true_eq,
        isAlnum, isLowerAlnum] at canonical
      obtain ⟨⟨here, _⟩, inside⟩ := canonical
      have others : ∀ letter ∈ text "_.-", letter.val < 128 := by simp [text]
      intro letter member
      rcases List.mem_cons.mp member with rfl | later
      · omega
      · rcases inside letter later with alnum | other
        · omega
        · exact others letter other

/-- Entries keep their identifiers in a round trip. -/
theorem Named.normalize {entries : List Json} (named : Named entries)
    (tidy : ∀ entry ∈ entries, entry.Tidy) : Named (entries.map Json.normalize) := by
  have kept : ∀ entry ∈ entries, entry.normalize.get "id" = entry.get "id" := by
    intro entry member
    obtain ⟨name, is, canonical⟩ := named.named entry member
    have there : entry.get? "id" = some (.str name) := by
      rw [Json.get?_of_get_ne_null (by rw [is]; simp), is]
    rw [Json.get, Json.getD, get?_normalize_of_tidy (tidy entry member) (by simp [text]), there,
      is, Option.map_some, Option.getD_some, Json.normalize,
      mergeSurrogates_ascii (isRecordId_ascii canonical)]
  constructor
  · intro entry member
    obtain ⟨given, inside, rfl⟩ := List.mem_map.mp member
    rw [kept given inside]
    exact named.named given inside
  · rw [List.map_map]
    have same : entries.map ((·.get "id") ∘ Json.normalize) = entries.map (·.get "id") :=
      List.map_congr_left kept
    rw [same]
    exact named.apart

/-- What stays of a gate. -/
structure GateKept (old new : Json) : Prop where
  description : (new.get "description").equal (old.get "description") = true
  severity : (new.getD "severity" (.str "high")).equal (old.getD "severity" (.str "high")) = true
  level : (new.get "gate_severity").equal (old.get "gate_severity") = true
  created : (new.get "created_revision").equal (old.get "created_revision") = true

/-- What stays of a risk. -/
structure RiskKept (old new : Json) : Prop where
  description : (new.get "description").equal (old.get "description") = true
  severity : (new.get "severity").equal (old.get "severity") = true

/-- Every entry is still there, with what stays of it. -/
def EntriesKept (kept : Json → Json → Prop) (before after : List Json) : Prop :=
  ∀ entry ∈ before, ∃ entry' ∈ after, entry'.get "id" = entry.get "id" ∧ kept entry entry'

theorem EntriesKept.trans {kept : Json → Json → Prop} {first second third : List Json}
    (chains : ∀ {entry entry' entry''}, kept entry entry' → kept entry' entry'' → kept entry entry'')
    (left : EntriesKept kept first second) (right : EntriesKept kept second third) :
    EntriesKept kept first third := by
  intro entry member
  obtain ⟨entry', there, id_, same⟩ := left entry member
  obtain ⟨entry'', end_, id_', same'⟩ := right entry' there
  exact ⟨entry'', end_, id_'.trans id_, chains same same'⟩

theorem EntriesKept.mono {kept kept' : Json → Json → Prop} {before after : List Json}
    (weaker : ∀ {entry entry'}, kept entry entry' → kept' entry entry')
    (entries : EntriesKept kept before after) : EntriesKept kept' before after := by
  intro entry member
  obtain ⟨entry', there, id_, same⟩ := entries entry member
  exact ⟨entry', there, id_, weaker same⟩

theorem gateKept_of_sameGate {old new : Json} (same : sameGate new old = true) : GateKept old new := by
  simp only [sameGate, Bool.and_eq_true] at same
  obtain ⟨⟨⟨description, severity⟩, level⟩, created⟩ := same
  exact ⟨description, severity, level, created⟩

theorem riskKept_of_sameRisk {old new : Json} (same : sameRisk new old = true) : RiskKept old new := by
  simp only [sameRisk, Bool.and_eq_true] at same
  exact ⟨same.1, same.2⟩

theorem GateKept.trans {first second third : Json} (left : GateKept first second)
    (right : GateKept second third) : GateKept first third where
  description := Json.equal_trans right.description left.description
  severity := Json.equal_trans right.severity left.severity
  level := Json.equal_trans right.level left.level
  created := Json.equal_trans right.created left.created

theorem RiskKept.trans {first second third : Json} (left : RiskKept first second)
    (right : RiskKept second third) : RiskKept first third where
  description := Json.equal_trans right.description left.description
  severity := Json.equal_trans right.severity left.severity

/-- What a check of entries says. -/
theorem entriesKept_of_validate {field deleted rewritten : Text} {same : Json → Json → Bool}
    {old new : Json} {before after : List Json} (named : Named before)
    (beforeIs : old.get? field = some (.arr before)) (afterIs : new.get? field = some (.arr after))
    (valid : validateEntries field same deleted rewritten old new = .ok ()) :
    EntriesKept (fun entry entry' => same entry' entry = true) before after := by
  have oldIs : listD old field = .arr before := by rw [listD, Json.getD, beforeIs, Option.getD_some]
  have newIs : listD new field = .arr after := by rw [listD, Json.getD, afterIs, Option.getD_some]
  simp only [validateEntries, oldIs, newIs, Json.arr?, Option.getD_some, iterate, bind_eq_ok,
    require_eq_ok, exists_const, Except.ok.injEq, exists_eq_left'] at valid
  obtain ⟨ids, idsIs, _, _, kept, sames⟩ := valid
  intro entry member
  obtain ⟨name, is, _⟩ := named.named entry member
  have there := List.all_eq_true.mp kept entry member
  rw [is, inList, List.any_eq_true] at there
  obtain ⟨value, inside, equal⟩ := there
  rw [decide_eq_true_eq, Json.alike_str] at equal
  subst equal
  obtain ⟨entry', end_, found⟩ := (mem_mapM_iff idsIs).mp inside
  have id_ : entry'.get "id" = .str name := by
    rw [Json.get, Json.getD, item_eq_ok.mp found, Option.getD_some]
  refine ⟨entry', end_, id_.trans is.symm, ?_⟩
  have all := List.all_eq_true.mp sames entry' end_
  -- No other entry has the identifier, so the entry is compared with itself.
  cases search : before.reverse.find? fun earlier => (earlier.get "id").Alike (entry'.get "id") with
  | none =>
      have unfound := List.find?_eq_none.mp search entry (List.mem_reverse.mpr member)
      rw [id_, is, decide_eq_true_eq] at unfound
      exact absurd (Json.alike_self _) unfound
  | some earlier =>
      have equal := List.find?_some search
      rw [id_, decide_eq_true_eq, Json.alike_str] at equal
      have inside := List.mem_reverse.mp (List.mem_of_find?_eq_some search)
      have one := List.inj_on_of_nodup_map named.apart inside member (equal.trans is.symm)
      rw [search, one] at all
      exact all

/-! ## Moves -/

/-- Moves along the allowed transitions from one stage to another. -/
inductive Leads : Stage → List Json → Stage → Prop
  | stay {stage : Stage} : Leads stage [] stage
  | move {stage next last : Stage} {move : Json} {moves : List Json} :
      move.get "from" = .str stage.name → move.get "to" = .str next.name →
      next ∈ stage.allowed → Leads next moves last → Leads stage (move :: moves) last

theorem isSome_of_int? {value : Json} {key : Text} (number : (value.get key).int?.isSome = true) :
    (value.get? key).isSome = true := by
  rw [Json.get, Json.getD] at number
  cases is : value.get? key with
  | none =>
      rw [is] at number
      cases number
  | some item => rfl

theorem leads_of_validateMoves {versioned : Bool} {stage : Stage} {last : ℤ} {moves : List Json}
    {reached : Text}
    (valid : TaskSchema.validateMoves versioned stage.name last moves = .ok reached) :
    ∃ final, reached = final.name ∧ Leads stage moves final ∧ (versioned = true →
      ∀ move ∈ moves, (move.get? "revision").isSome = true ∧ (move.get? "epoch").isSome = true) := by
  induction moves generalizing stage last with
  | nil =>
      cases valid
      exact ⟨stage, rfl, .stay, by simp⟩
  | cons move moves ih =>
      simp only [TaskSchema.validateMoves, Stage.ofName?_name, Option.map_some, Option.getD_some,
        bind_eq_ok, require_eq_ok, exists_const] at valid
      obtain ⟨from_, fetched, fromIs, _, target, rfl, rest⟩ := valid
      obtain ⟨object, rfl⟩ := fetch_eq_ok.mp fetched
      obtain ⟨name, member, toIs⟩ := inSet_eq_true.mp target
      obtain ⟨next, allowed, rfl⟩ := List.mem_map.mp member
      have goesOn {revision : ℤ} (valid : TaskSchema.validateMoves versioned
          ((move.get "to").str?.getD []) revision moves = .ok reached)
          (keys : versioned = true →
            (move.get? "revision").isSome = true ∧ (move.get? "epoch").isSome = true) :
          ∃ final, reached = final.name ∧ Leads stage (move :: moves) final ∧
            (versioned = true → ∀ given ∈ move :: moves,
              (given.get? "revision").isSome = true ∧ (given.get? "epoch").isSome = true) := by
        rw [toIs, Json.str?, Option.getD_some] at valid
        obtain ⟨final, reachedIs, leads, rest⟩ := ih valid
        refine ⟨final, reachedIs, .move (Json.equal_str.mp fromIs) toIs allowed leads, ?_⟩
        intro new given member
        rcases List.mem_cons.mp member with rfl | later
        · exact keys new
        · exact rest new given later
      split at rest
      · cases number : (move.get "revision").int? with
        | none =>
            rw [number] at rest
            cases rest
        | some revision =>
            simp only [number, bind_eq_ok, require_eq_ok, exists_const] at rest
            obtain ⟨_, epoch, _, _, _, valid⟩ := rest
            refine goesOn valid fun _ => ⟨?_, ?_⟩
            · exact isSome_of_int? (by rw [number]; rfl)
            · exact isSome_of_int? epoch
      · next old =>
          simp only [bind_eq_ok, require_eq_ok, exists_const] at rest
          obtain ⟨_, _, _, valid⟩ := rest
          exact goesOn valid fun new => absurd new old

/-! ## Migration of a stored task -/

/-- The fields that a migration may change. -/
def migratedFields (host : Host) : List Text :=
  [text "schema", "tdd", "transitions", "integrity_sha256"] ++ (migrationDefaults host).map (·.1)

theorem get?_migrate {task migrated : Json} (done : migrate host task = .ok migrated) {key : Text}
    (kept : key ∉ migratedFields host) : migrated.get? key = task.normalize.get? key := by
  simp only [migratedFields, List.mem_append, List.mem_cons, List.not_mem_nil, or_false,
    not_or] at kept
  obtain ⟨⟨schema, tdd, transitions, integrity⟩, defaults⟩ := kept
  obtain ⟨complete, _, _, _, same, _, rest⟩ := migrate_eq_ok done
  have unchanged := same key (by simp [schema, tdd]) defaults
  rcases rest with ⟨_, rfl⟩ | ⟨moves, moved, _, _, rfl⟩ | ⟨_, _, _, rfl⟩
  · rw [sealTask, reseal, Json.get?_set_of_ne _ (Ne.symm integrity), unchanged]
  · rw [sealTask, reseal, Json.get?_set_of_ne _ (Ne.symm integrity),
      Json.get?_set_of_ne _ (Ne.symm transitions), unchanged]
  · rw [sealTask, reseal, Json.get?_set_of_ne _ (Ne.symm integrity), unchanged]

theorem migrateMoves_eq {index epoch : ℤ} {moves moved : List Json}
    (keys : ∀ move ∈ moves, (move.get? "revision").isSome = true ∧
      (move.get? "epoch").isSome = true)
    (done : migrateMoves index epoch moves = .ok moved) : moved = moves := by
  induction moves generalizing index epoch moved with
  | nil =>
      cases done
      rfl
  | cons move moves ih =>
      obtain ⟨here, later⟩ := List.forall_mem_cons.mp keys
      simp only [migrateMoves, bind_eq_ok] at done
      obtain ⟨_, _, _, _, rest, done, is⟩ := done
      cases is
      rw [ih later done]
      simp only [setDefault, here.1, if_true, here.2]

theorem withDefaults_eq {value : Json} {defaults : List (Text × Json)}
    (keys : ∀ field ∈ defaults, (value.get? field.1).isSome = true) :
    withDefaults value defaults = value := by
  induction defaults with
  | nil => rfl
  | cons field defaults ih =>
      obtain ⟨here, later⟩ := List.forall_mem_cons.mp keys
      have kept : setDefault value field.1 field.2 = value := by rw [setDefault, if_pos here]
      rw [withDefaults, List.foldl_cons, kept]
      exact ih later

theorem requireList_eq_ok {task : Json} {field : Text} {items : List Json}
    (listed : TaskSchema.requireList task field = .ok items) :
    task.get? field = some (.arr items) := by
  rw [TaskSchema.requireList] at listed
  split at listed
  · next items is =>
      cases listed
      have found := Json.arr?_eq_some.mp is
      rw [Json.get?_of_get_ne_null (by rw [found]; simp), found]
  · cases listed

/-- A task that was stored by a save. -/
structure Settled (host : Host) (id : Text) (task : Json) : Prop where
  plain : task.Plain
  valid : Valid host id task
  schema : (task.get "schema").equal (.int 4) = true
  tdd : (task.get? "tdd").isSome = true

namespace Settled

variable {task migrated : Json}

theorem versioned (settled : Settled host id task) :
    TaskSchema.isVersioned (task.get "schema") = true := by
  rw [TaskSchema.isVersioned, settled.schema, Bool.or_true]

/-- The moves of a stored task. -/
theorem moves (settled : Settled host id task) :
    ∃ moves final, task.get? "transitions" = some (.arr moves) ∧
      task.get "state" = .str final.name ∧ Leads .created moves final ∧
      ∀ move ∈ moves, (move.get? "revision").isSome = true ∧ (move.get? "epoch").isSome = true := by
  have history := settled.valid.history
  simp only [TaskSchema.validateHistory, settled.versioned, bind_eq_ok, require_eq_ok] at history
  obtain ⟨moves, listed, reached, walked, state⟩ := history
  obtain ⟨final, rfl, leads, keys⟩ := @leads_of_validateMoves _ .created _ _ _ walked
  exact ⟨moves, final, requireList_eq_ok listed, Json.equal_str.mp state, leads, keys rfl⟩

theorem migrate_transitions (settled : Settled host id task)
    (done : migrate host task = .ok migrated) :
    migrated.get? "transitions" = task.get? "transitions" := by
  obtain ⟨moves, final, there, _, _, keys⟩ := settled.moves
  obtain ⟨complete, _, object, _, same, _, rest⟩ := migrate_eq_ok done
  have unchanged : complete.get? "transitions" = some (.arr moves) := by
    rw [same "transitions" (by simp) (by simp [migrationDefaults]), settled.plain, there]
  rcases rest with ⟨missing, _⟩ | ⟨moves', moved, found, is, rfl⟩ | ⟨other, found, noList, _⟩
  · rw [unchanged] at missing
    cases missing
  · cases unchanged.symm.trans found
    rw [sealTask, reseal, Json.get?_set_of_ne _ (by simp), Json.get?_set object, if_pos rfl,
      migrateMoves_eq keys is, there]
  · cases unchanged.symm.trans found
    cases noList

theorem migrate_tdd (settled : Settled host id task) (done : migrate host task = .ok migrated) :
    migrated.get? "tdd" = task.get? "tdd" := by
  obtain ⟨tdd, there⟩ := Option.isSome_iff_exists.mp settled.tdd
  obtain ⟨complete, _, _, _, _, ⟨tdd', found, same⟩, rest⟩ := migrate_eq_ok done
  have complete_ : withDefaults tdd TaskSchema.emptyTdd = tdd := by
    refine withDefaults_eq fun field member => ?_
    have valid := settled.valid.tdd tdd there
    simp only [TaskSchema.validateTdd, bind_eq_ok, require_eq_ok, exists_const] at valid
    obtain ⟨_, complete, _⟩ := valid
    have nodup : (TaskSchema.emptyTdd.map (·.1)).Nodup := by simp [TaskSchema.emptyTdd]
    have inside := Fields.mem_of_get? (Fields.get?_ofPairs member fun pair other same =>
      congrArg Prod.snd (List.inj_on_of_nodup_map nodup other member same))
    have found := List.filterMap_eq_nil_iff.mp complete _ inside
    cases is : tdd.get? field.1 with
    | none => simp [is] at found
    | some item => rfl
  have unchanged : complete.get? "tdd" = some tdd := by
    rw [found, same tdd (by rw [settled.plain, there]), complete_]
  rcases rest with ⟨_, rfl⟩ | ⟨moves, moved, _, _, rfl⟩ | ⟨_, _, _, rfl⟩
  · rw [sealTask, reseal, Json.get?_set_of_ne _ (by simp), unchanged, there]
  · rw [sealTask, reseal, Json.get?_set_of_ne _ (by simp), Json.get?_set_of_ne _ (by simp),
      unchanged, there]
  · rw [sealTask, reseal, Json.get?_set_of_ne _ (by simp), unchanged, there]

end Settled

/-! ## One save -/

/-- The cycles of a task. -/
def cyclesOf (task : Json) : List Json := (listD (task.getD "tdd" (.obj [])) "cycles").arr?.getD []

/-- The items of a list of a task. -/
def itemsUnder (task : Json) (field : Text) : List Json := (listD task field).arr?.getD []

/-- What a task keeps of an earlier one. -/
structure Continues (old new : Json) : Prop where
  fields : ∀ field ∈ [text "id", "title", "mode", "complexity", "risk", "created"],
    (new.get field).equal (old.get field) = true
  lists : ∀ field ∈ [text "decisions", "child_history", "transitions"],
    Extends (itemsUnder old field) (itemsUnder new field)
  cycles : (cyclesOf old).length ≤ (cyclesOf new).length ∧
    ∀ (index : ℕ) (cycle cycle' : Json), (cyclesOf old)[index]? = some cycle →
      (cyclesOf new)[index]? = some cycle' → CycleKept cycle cycle'
  gates : EntriesKept GateKept (itemsUnder old "gates") (itemsUnder new "gates")
  risks : EntriesKept RiskKept (itemsUnder old "risks") (itemsUnder new "risks")

theorem Continues.trans {first second third : Json} (left : Continues first second)
    (right : Continues second third) : Continues first third where
  fields field member := Json.equal_trans (right.fields field member) (left.fields field member)
  lists field member := (left.lists field member).trans (right.lists field member)
  cycles := by
    refine ⟨left.cycles.1.trans right.cycles.1, fun index cycle cycle'' here there => ?_⟩
    have inside : index < (cyclesOf second).length :=
      lt_of_lt_of_le (List.getElem?_eq_some_iff.mp here).1 left.cycles.1
    have middle := List.getElem?_eq_getElem inside
    exact (left.cycles.2 index _ _ here middle).trans (right.cycles.2 index _ _ middle there)
  gates := left.gates.trans GateKept.trans right.gates
  risks := left.risks.trans RiskKept.trans right.risks

/-- The fields that hold the history of a task. -/
def historyFields : List Text :=
  immutableFields ++ [text "decisions", "child_history", "transitions", "tdd", "gates", "risks"]

/-- A task keeps what another one keeps that agrees with it in its history. -/
theorem Continues.of_agree {old old' new new' : Json} (kept : Continues old new)
    (agree : ∀ field ∈ historyFields, old.get? field = old'.get? field)
    (agree' : ∀ field ∈ historyFields, new.get? field = new'.get? field) :
    Continues old' new' := by
  have getD {first second : Json} (same : ∀ field ∈ historyFields, first.get? field = second.get? field)
      {field : Text} (member : field ∈ historyFields) (default : Json) :
      first.getD field default = second.getD field default := by
    rw [Json.getD, same field member, Json.getD]
  have items {first second : Json}
      (same : ∀ field ∈ historyFields, first.get? field = second.get? field) {field : Text}
      (member : field ∈ historyFields) : itemsUnder first field = itemsUnder second field := by
    rw [itemsUnder, listD, getD same member, itemsUnder, listD]
  have cycles {first second : Json}
      (same : ∀ field ∈ historyFields, first.get? field = second.get? field) :
      cyclesOf first = cyclesOf second := by
    rw [cyclesOf, getD same (by simp [historyFields]), cyclesOf]
  exact {
    fields := fun field member => by
      have inside : field ∈ historyFields := List.mem_append_left _ member
      have here := kept.fields field member
      rw [Json.get, Json.get, getD agree inside, getD agree' inside] at here
      exact here
    lists := fun field member => by
      have inside : field ∈ historyFields := by
        refine List.mem_append_right _ ?_
        revert field
        simp
      rw [← items agree inside, ← items agree' inside]
      exact kept.lists field member
    cycles := by
      rw [← cycles agree, ← cycles agree']
      exact kept.cycles
    gates := by
      rw [← items agree (by simp [historyFields]), ← items agree' (by simp [historyFields])]
      exact kept.gates
    risks := by
      rw [← items agree (by simp [historyFields]), ← items agree' (by simp [historyFields])]
      exact kept.risks }

theorem cycleKept_of_validateChanges {before after : List Json}
    (valid : validateCycleChanges before after = .ok ()) (index : ℕ) {cycle cycle' : Json}
    (here : before[index]? = some cycle) (there : after[index]? = some cycle') :
    CycleKept cycle cycle' := by
  induction before generalizing after index with
  | nil => cases here
  | cons old before ih =>
      cases after with
      | nil => cases there
      | cons new after =>
          obtain ⟨_, first, rest⟩ := bind_eq_ok.mp valid
          cases index with
          | zero =>
              cases here
              cases there
              exact cycleKept_of_validate first
          | succ index => exact ih rest index here there

/-- What `_validate_append_only` says of tasks with named gates and risks. -/
theorem continues_of_validateAppendOnly {old new : Json} {gates gates' risks risks' : List Json}
    (namedGates : Named gates) (namedRisks : Named risks)
    (oldGates : old.get? "gates" = some (.arr gates))
    (newGates : new.get? "gates" = some (.arr gates'))
    (oldRisks : old.get? "risks" = some (.arr risks))
    (newRisks : new.get? "risks" = some (.arr risks'))
    (valid : validateAppendOnly old new = .ok ()) :
    Continues old new ∧ validateEpochChange old new = .ok () := by
  have under {task : Json} {field : Text} {items : List Json}
      (is : task.get? field = some (.arr items)) : itemsUnder task field = items := by
    rw [itemsUnder, listD, Json.getD, is]
    rfl
  simp only [validateAppendOnly, bind_eq_ok] at valid
  obtain ⟨_, fields, _, lists, after, fetched, rest⟩ := valid
  obtain ⟨_, rfl⟩ := fetchD_eq_ok.mp fetched
  split at rest
  · cases rest
  · next cycles is =>
      simp only [bind_eq_ok, require_eq_ok, exists_const] at rest
      obtain ⟨shorter, _, changes, _, epoch, _, gateEntries, riskEntries⟩ := rest
      have cyclesIs : cyclesOf new = cycles := by
        rw [cyclesOf, listD, is]
        rfl
      refine ⟨⟨?_, ?_, ⟨?_, ?_⟩, ?_, ?_⟩, epoch⟩
      · intro field member
        exact require_eq_ok.mp (forM_eq_ok.mp fields field member)
      · intro field member
        have here := forM_eq_ok.mp lists field member
        simp only [bind_eq_ok, require_eq_ok] at here
        obtain ⟨_, extends_, rfl⟩ := here
        obtain ⟨items, itemsIs, continues⟩ := extends_eq_true extends_
        rw [itemsUnder, itemsUnder, itemsIs]
        exact continues
      · rw [cyclesIs]
        exact shorter
      · intro index cycle cycle' here there
        rw [cyclesIs] at there
        exact cycleKept_of_validateChanges changes index here there
      · rw [under oldGates, under newGates]
        exact (entriesKept_of_validate namedGates oldGates newGates gateEntries).mono
          gateKept_of_sameGate
      · rw [under oldRisks, under newRisks]
        exact (entriesKept_of_validate namedRisks oldRisks newRisks riskEntries).mono
          riskKept_of_sameRisk

/-- The epoch stays or grows by one. -/
theorem epoch_of_validate {old new : Json} {before after : ℤ}
    (beforeIs : old.get? "change_epoch" = some (.int before))
    (afterIs : new.get? "change_epoch" = some (.int after))
    (valid : validateEpochChange old new = .ok ()) : before ≤ after ∧ after ≤ before + 1 := by
  have beforeD : old.getD "change_epoch" (.int 0) = .int before := by
    rw [Json.getD, beforeIs, Option.getD_some]
  have afterD : new.getD "change_epoch" (.int 0) = .int after := by
    rw [Json.getD, afterIs, Option.getD_some]
  simp only [validateEpochChange, beforeD, afterD, Json.plainInt?, Option.getD_some, less,
    Json.number?, numberLess, bind_eq_ok, require_eq_ok, Except.ok.injEq, exists_eq_left',
    decide_eq_true_eq, not_lt] at valid
  exact_mod_cast valid

/-- Every call that succeeds prepares a task and stores it. -/
theorem prepared_of_perform {workspace returned : Json} {disk after : TaskDisk} {tick : ℕ}
    {request : Request} (done : perform host workspace id (host.entropy.now tick) disk request =
      .ok (returned, after)) :
    ∃ current, load host workspace id disk = .ok current ∧
      ∃ files edited expected migrated updated checked records,
        Prepared host files current edited expected tick migrated updated checked records ∧
        returned = storedTask host current checked expected (host.entropy.now tick) := by
  have locked {disk : TaskDisk} {current edited : Json} {expected : ℤ}
      (done : saveLocked host disk current edited expected (host.entropy.now tick) =
        .ok (returned, after)) : ∃ migrated updated checked records,
        Prepared host disk.files current edited expected tick migrated updated checked records ∧
        returned = storedTask host current checked expected (host.entropy.now tick) := by
    rw [saveLocked] at done
    simp only [bind_eq_ok, require_eq_ok, exists_const] at done
    obtain ⟨⟨migrated, stored⟩, prepares, _, _, _, _, _, _, _, is⟩ := done
    cases is
    obtain ⟨updated, checked, records, prepared⟩ := prepare_eq_ok prepares
    exact ⟨migrated, updated, checked, records, prepared⟩
  cases request with
  | save task expected =>
      simp only [perform, bind_eq_ok, require_eq_ok, exists_const] at done
      obtain ⟨_, current, loads, done⟩ := done
      exact ⟨current, loads, _, _, _, locked done⟩
  | mutate edit expected allowActiveChild =>
      simp only [perform, bind_eq_ok, require_eq_ok, exists_const] at done
      obtain ⟨current, loads, _, _, _, _, _, edited, _, done⟩ := done
      exact ⟨current, loads, _, _, _, locked done⟩

/-- What a task keeps of an earlier one over a number of saves. -/
structure Kept (saves : ℕ) (old new : Json) : Prop where
  continues : Continues old new
  epoch : ∃ before after, old.get? "change_epoch" = some (.int before) ∧
    new.get? "change_epoch" = some (.int after) ∧ before ≤ after ∧ after ≤ before + saves
  revision : ∃ before, old.get? "revision" = some (.int before) ∧
    new.get? "revision" = some (.int (before + saves))

theorem Kept.trans {first second third : Json} {saves more : ℕ} (left : Kept saves first second)
    (right : Kept more second third) : Kept (saves + more) first third where
  continues := left.continues.trans right.continues
  epoch := by
    obtain ⟨before, middle, beforeIs, middleIs, low, high⟩ := left.epoch
    obtain ⟨middle', after, middleIs', afterIs, low', high'⟩ := right.epoch
    cases middleIs.symm.trans middleIs'
    refine ⟨before, after, beforeIs, afterIs, low.trans low', ?_⟩
    push_cast
    omega
  revision := by
    obtain ⟨before, beforeIs, middleIs⟩ := left.revision
    obtain ⟨middle, middleIs', afterIs⟩ := right.revision
    cases middleIs.symm.trans middleIs'
    refine ⟨before, beforeIs, ?_⟩
    rw [afterIs]
    push_cast
    rw [add_assoc]

/-- The gates and the risks of a task have names. -/
theorem Valid.named {task : Json} (valid : Valid host id task) :
    ∃ gates risks, task.get? "gates" = some (.arr gates) ∧ Named gates ∧
      task.get? "risks" = some (.arr risks) ∧ Named risks := by
  have lists := valid.lists
  simp only [TaskSchema.validateLists, bind_eq_ok] at lists
  obtain ⟨gates, gatesIs, risks, risksIs, _, _, _, _, _, _, _, _, _, gateIds, _, riskIds, _⟩ := lists
  exact ⟨gates, risks, requireList_eq_ok gatesIs, named_of_uniqueIds gateIds,
    requireList_eq_ok risksIs, named_of_uniqueIds riskIds⟩

theorem get?_of_get_int {value : Json} {key : Text} {number : ℤ}
    (is : value.get key = .int number) : value.get? key = some (.int number) := by
  rw [Json.get?_of_get_ne_null (by rw [is]; simp), is]

section

variable {files : TaskFiles} {current edited migrated updated checked : Json} {expected : ℤ}
  {tick : ℕ} {records : List Json}

theorem settled_of_prepared (valid : Valid host id current)
    (prepared : Prepared host files current edited expected tick migrated updated checked records) :
    Settled host id (storedTask host current checked expected (host.entropy.now tick)) := by
  have stored := prepared.valid
  rw [valid.id_] at stored
  refine ⟨prepared.plain, valid_of_validateTask stored, prepared.schema, ?_⟩
  have touched := prepared.touches.trans (@touched_storedTask host current checked expected tick)
  rw [touched.kept "tdd" (by simp [savedFields])]
  exact tdd_migrate prepared.updates

/-- A field of a task that was read, after its migration. -/
theorem get?_migrate_of_tidy (tidy : current.Tidy) (done : migrate host current = .ok migrated)
    {key : Text} (ascii : ∀ letter ∈ key, letter.val < 128) (kept : key ∉ migratedFields host) :
    migrated.get? key = (current.get? key).map Json.normalize := by
  rw [get?_migrate done kept, get?_normalize_of_tidy tidy ascii]

/-- One save keeps the history of a task. -/
theorem kept_of_prepared (valid : Valid host id current) (tidy : current.Tidy)
    (prepared : Prepared host files current edited expected tick migrated updated checked records) :
    Kept 1 migrated (storedTask host current checked expected (host.entropy.now tick)) := by
  have settled := settled_of_prepared valid prepared
  have touched := @touched_storedTask host current checked expected tick
  have read {key : Text} := @get?_migrate_of_tidy _ _ _ tidy prepared.migrates key
  obtain ⟨gates, risks, gatesIs, namedGates, risksIs, namedRisks⟩ := valid.named
  obtain ⟨gates', risks', gatesIs', _, risksIs', _⟩ := settled.valid.named
  rw [touched.kept _ (by simp [savedFields])] at gatesIs' risksIs'
  obtain ⟨continues, epochs⟩ := continues_of_validateAppendOnly
    (namedGates.normalize (tidy.get? gatesIs).item) (namedRisks.normalize (tidy.get? risksIs).item)
    (by rw [read (by simp [text]) (by simp [migratedFields, migrationDefaults]), gatesIs,
          Option.map_some, Json.normalize, Json.normalizeItems_eq_map])
    gatesIs'
    (by rw [read (by simp [text]) (by simp [migratedFields, migrationDefaults]), risksIs,
          Option.map_some, Json.normalize, Json.normalizeItems_eq_map])
    risksIs' prepared.appends
  refine ⟨continues.of_agree (fun _ _ => rfl) fun field member => ?_, ?_, ?_⟩
  · refine (touched.kept field ?_).symm
    revert field
    simp [historyFields, immutableFields, savedFields]
  · obtain ⟨before, beforeIs, _⟩ := valid.epoch
    obtain ⟨after, afterIs, _⟩ := settled.valid.epoch
    have here : migrated.get? "change_epoch" = some (.int before) := by
      rw [read (by simp [text]) (by simp [migratedFields, migrationDefaults]),
        get?_of_get_int beforeIs]
      rfl
    have there := get?_of_get_int afterIs
    rw [touched.kept _ (by simp [savedFields])] at there
    obtain ⟨low, high⟩ := epoch_of_validate here there epochs
    exact ⟨before, after, here, get?_of_get_int afterIs, low, by exact_mod_cast high⟩
  · obtain ⟨before, beforeIs, _⟩ := valid.revision
    have same := prepared.here
    rw [beforeIs, Json.int_equal_int] at same
    subst same
    refine ⟨before, ?_, get?_of_get_int prepared.revision⟩
    rw [read (by simp [text]) (by simp [migratedFields, migrationDefaults]),
      get?_of_get_int beforeIs]
    rfl

end

/-- A task that was stored by a save keeps its history when it is migrated. -/
theorem Kept.of_migrate {saves : ℕ} {task migrated later : Json} (settled : Settled host id task)
    (done : migrate host task = .ok migrated) (kept : Kept saves migrated later) :
    Kept saves task later := by
  have same {key : Text} (absent : key ∉ migratedFields host) :
      migrated.get? key = task.get? key := by
    rw [get?_migrate done absent, settled.plain]
  refine ⟨kept.continues.of_agree ?_ fun _ _ => rfl, ?_, ?_⟩
  · intro field member
    by_cases moves : field = text "transitions"
    · rw [moves]
      exact settled.migrate_transitions done
    by_cases tdd : field = text "tdd"
    · rw [tdd]
      exact settled.migrate_tdd done
    refine same ?_
    revert field
    simp [historyFields, immutableFields, migratedFields, migrationDefaults]
  · obtain ⟨before, after, beforeIs, rest⟩ := kept.epoch
    rw [same (by simp [migratedFields, migrationDefaults])] at beforeIs
    exact ⟨before, after, beforeIs, rest⟩
  · obtain ⟨before, beforeIs, rest⟩ := kept.revision
    rw [same (by simp [migratedFields, migrationDefaults])] at beforeIs
    exact ⟨before, beforeIs, rest⟩

/-! ## Runs -/

/-- What a call that succeeds keeps of the task that it loads. -/
theorem kept_of_perform {workspace returned : Json} {disk after : TaskDisk} {tick : ℕ}
    {request : Request} (done : perform host workspace id (host.entropy.now tick) disk request =
      .ok (returned, after)) :
    ∃ current migrated, load host workspace id disk = .ok current ∧
      migrate host current = .ok migrated ∧ Kept 1 migrated returned ∧ Settled host id returned := by
  obtain ⟨current, loads, files, edited, expected, migrated, updated, checked, records, prepared,
    rfl⟩ := prepared_of_perform done
  obtain ⟨bytes, _, reads, valid, _⟩ := load_eq_ok.mp loads
  have facts := valid_of_validateTask valid
  obtain ⟨input, _, parsed⟩ := Option.bind_eq_some_iff.mp reads
  exact ⟨current, migrated, loads, prepared.migrates,
    kept_of_prepared facts (tidy_of_loads parsed) prepared, settled_of_prepared facts prepared⟩

/-- A run of calls that succeed: the tasks that were stored, from the one that was there. -/
inductive Series (host : Host) (id : Text) : List Json → TaskDisk → Prop
  | start {workspace current : Json} {disk : TaskDisk} :
      load host workspace id disk = .ok current → Series host id [current] disk
  | save {workspace returned : Json} {tasks : List Json} {disk after : TaskDisk} {tick : ℕ}
      {request : Request} : Series host id tasks disk →
      perform host workspace id (host.entropy.now tick) disk request = .ok (returned, after) →
      Series host id (tasks ++ [returned]) after

/-- The last task of a run is the one that can be loaded. -/
theorem Series.getLast {tasks : List Json} {disk : TaskDisk} (series : Series host id tasks disk)
    {workspace current : Json} (loads : load host workspace id disk = .ok current) :
    tasks.getLast? = some current := by
  cases series with
  | start loads' =>
      obtain ⟨_, state, reads, _⟩ := load_eq_ok.mp loads
      obtain ⟨_, state', reads', _⟩ := load_eq_ok.mp loads'
      cases state.symm.trans state'
      cases reads.symm.trans reads'
      rfl
  | save _ done =>
      obtain ⟨_, _, _, _, _, _, saved⟩ := saved_of_perform done
      rw [(saved.eq_of_load loads).1, List.getLast?_concat]

/-- A later task of a run was stored by a save. -/
theorem Series.settled {tasks : List Json} {disk : TaskDisk} (series : Series host id tasks disk)
    {index : ℕ} {task : Json} (later : 0 < index) (is : tasks[index]? = some task) :
    Settled host id task := by
  induction series with
  | start => simp [Nat.ne_of_gt later] at is
  | @save _ returned tasks _ _ _ _ _ done ih =>
      rcases lt_or_ge index tasks.length with inside | outside
      · rw [List.getElem?_append_left inside] at is
        exact ih is
      · obtain ⟨_, _, _, _, _, settled⟩ := kept_of_perform done
        rw [List.getElem?_append_right outside, List.getElem?_singleton] at is
        split at is
        · cases is
          exact settled
        · cases is

/-- Whatever functions edit a task, a later task of a run continues the migration of every
earlier one, and its moves lead from its creation to its state. -/
theorem kept_of_series {tasks : List Json} {disk : TaskDisk} (series : Series host id tasks disk)
    {first second : ℕ} {earlier later : Json} (before : first < second)
    (firstIs : tasks[first]? = some earlier) (secondIs : tasks[second]? = some later) :
    (∃ migrated, migrate host earlier = .ok migrated ∧ Kept (second - first) migrated later) ∧
      ∃ moves final, later.get? "transitions" = some (.arr moves) ∧
        later.get "state" = .str final.name ∧ Leads .created moves final := by
  refine ⟨?_, ?_⟩
  · induction series generalizing second later with
    | start =>
        have outside : 1 ≤ second := Nat.succ_le_of_lt (Nat.zero_lt_of_lt before)
        rw [List.getElem?_eq_none outside] at secondIs
        cases secondIs
    | @save _ returned tasks _ _ _ _ run done ih =>
        obtain ⟨bound, _⟩ := List.getElem?_eq_some_iff.mp secondIs
        rw [List.length_append, List.length_singleton] at bound
        have inside : first < tasks.length := by omega
        rw [List.getElem?_append_left inside] at firstIs
        rcases lt_or_ge second tasks.length with earlierSave | thisSave
        · rw [List.getElem?_append_left earlierSave] at secondIs
          exact ih before firstIs secondIs
        · have last : second = tasks.length := by omega
          subst last
          rw [List.getElem?_concat_length, Option.some.injEq] at secondIs
          subst secondIs
          obtain ⟨current, migrated, loads, migrates, kept, _⟩ := kept_of_perform done
          have lastIs := run.getLast loads
          rw [List.getLast?_eq_getElem?] at lastIs
          rcases Nat.lt_or_ge first (tasks.length - 1) with old | newest
          · -- The task before the save was itself stored by one, so its migration adds nothing.
            obtain ⟨start, starts, keeps⟩ := ih old firstIs lastIs
            refine ⟨start, starts, ?_⟩
            have settled := run.settled (Nat.zero_lt_of_lt old) lastIs
            have both := keeps.trans (Kept.of_migrate settled migrates kept)
            have count : tasks.length - 1 - first + 1 = tasks.length - first := by omega
            rw [count] at both
            exact both
          · have same : first = tasks.length - 1 := by omega
            subst same
            cases firstIs.symm.trans lastIs
            refine ⟨migrated, migrates, ?_⟩
            have count : tasks.length - (tasks.length - 1) = 1 := by omega
            rw [count]
            exact kept
  · have settled := series.settled (Nat.zero_lt_of_lt before) secondIs
    obtain ⟨moves, final, there, state, leads, _⟩ := settled.moves
    exact ⟨moves, final, there, state, leads⟩

section Risks

/-- A task of schema 2 with a risk that was created at some revision. -/
def riskTask (created : ℤ) : Json := .obj (Fields.ofPairs
  [("schema", .int 2), ("id", .str "t-1"), ("title", .str "t"), ("mode", .str "read"),
    ("complexity", .str "S"), ("risk", .str "low"), ("state", .str "CREATED"),
    ("revision", .int 0), ("created", .str "2026-01-01T00:00:00+00:00"),
    ("updated", .str "2026-01-01T00:00:00+00:00"), ("precheck", .obj []), ("gates", .arr []),
    ("risks", .arr [.obj (Fields.ofPairs [("id", .str "R-1"), ("description", .str "d"),
      ("severity", .str "low"), ("status", .str "open"), ("created_revision", .int created)])]),
    ("decisions", .arr []), ("child_history", .arr []),
    ("verification_evidence", .arr []), ("verification_epoch", .null), ("change_epoch", .int 0),
    ("final_audit_complete", .bool false), ("active_child", .null), ("previous_state", .null),
    ("transitions", .arr [])])

/-- SHA-256 of no bytes, of the task before and after the edit, of the stored task, and of
the two anchors. -/
def riskHost : Host := tableHost
  [(0, 0xe3b0c44298fc1c149afbf4c8996fb92427ae41e4649b934ca495991b7852b855),
    (103723039, 0x47fc3cd710c57d902c331c8f0e54bcc666db709246644d9c302c78e674fc0890),
    (527055076, 0x97b5f044188ebf52181f523a4cfe8c522e31bd5870f69054a9cea30b8ff2b7ad),
    (411749331, 0x74de9177be4b6d9ad4e45f667658e3ffa41cda63f9ec68d4842c11497b418fdc),
    (514589827, 0xa8c3ca8fad17319b36d91690d6cf1cd1f48dd6e0ddfcc9195263e372df89369e),
    (348265138, 0xb6e5d8353761b60faad3663dbfbd18a8bf32676f44baeb07309fdbce060eed05)]

def riskDisk : TaskDisk := ⟨⟨none, none, some (fileText riskHost (riskTask 1))⟩, none, none⟩

/-- A function that writes another creation revision into the risk. -/
def redate : Edit := fun _ files => .ok (riskTask 2, files.ledger, files.anchor)

theorem load_riskDisk (workspace : Json) :
    load riskHost workspace "t-1" riskDisk = .ok (riskTask 1) := by
  refine load_eq_ok.mpr ⟨_, rfl, readJson_fileText (by decide +kernel), ?_, ?_, ?_⟩
  · decide +kernel
  · intro versioned
    exact absurd versioned (by decide +kernel)
  · intro finished
    exact absurd finished (by decide +kernel)

/-- No risk of a task has its creation revision from another one. -/
def redated (before after : Json) : Bool :=
  (itemsUnder after "risks").all fun risk' => (itemsUnder before "risks").all fun risk =>
    !(risk'.get "created_revision").equal (risk.get "created_revision")

example : redated (riskTask 1) (riskTask 2) = true := by
  decide +kernel

theorem saveLocked_riskDisk :
    ∃ returned after, saveLocked riskHost riskDisk (riskTask 1) (riskTask 2) 0
        (riskHost.entropy.now 0) = .ok (returned, after) ∧
      redated (riskTask 1) returned = true := by
  have run : (saveLocked riskHost riskDisk (riskTask 1) (riskTask 2) 0
      (riskHost.entropy.now 0)).toOption.any
        (fun result => redated (riskTask 1) result.1) = true := by decide +kernel
  cases is : saveLocked riskHost riskDisk (riskTask 1) (riskTask 2) 0 (riskHost.entropy.now 0) with
  | error raised =>
      rw [is] at run
      cases run
  | ok result =>
      rw [is] at run
      exact ⟨result.1, result.2, rfl, run⟩

theorem perform_riskDisk :
    ∃ returned after, perform riskHost (.obj []) "t-1" (riskHost.entropy.now 0) riskDisk
        (.mutate redate none false) = .ok (returned, after) ∧
      redated (riskTask 1) returned = true := by
  obtain ⟨returned, after, saves, changed⟩ := saveLocked_riskDisk
  refine ⟨returned, after, ?_, changed⟩
  simp only [perform, bind_eq_ok, require_eq_ok, exists_const]
  refine ⟨riskTask 1, load_riskDisk _, false, by decide +kernel, by decide, rfl,
    by decide +kernel, _, rfl, ?_⟩
  have revision : ((riskTask 1).get "revision").int?.getD 0 = 0 := by decide +kernel
  rw [revision]
  exact saves

theorem kept_of_series_riskTask :
    ∃ migrated returned after, Series riskHost "t-1" [riskTask 1, returned] after ∧
      migrate riskHost (riskTask 1) = .ok migrated ∧ Kept 1 migrated returned := by
  obtain ⟨returned, after, performs, _⟩ := perform_riskDisk
  have series := Series.save (Series.start (load_riskDisk (.obj []))) performs
  obtain ⟨⟨migrated, migrates, kept⟩, _⟩ := kept_of_series series Nat.zero_lt_one rfl rfl
  exact ⟨migrated, returned, after, series, migrates, kept⟩

/-- One save is enough to change the creation revision of a risk. -/
theorem riskTask_redated :
    ∃ returned after, Series riskHost "t-1" [riskTask 1, returned] after ∧
      ∃ risk ∈ itemsUnder (riskTask 1) "risks", ∀ risk' ∈ itemsUnder returned "risks",
        (risk'.get "created_revision").equal (risk.get "created_revision") = false := by
  obtain ⟨returned, after, performs, changed⟩ := perform_riskDisk
  refine ⟨returned, after, Series.save (Series.start (load_riskDisk (.obj []))) performs, ?_⟩
  have given : ∃ risk, risk ∈ itemsUnder (riskTask 1) "risks" :=
    List.exists_mem_of_ne_nil _ (by decide +kernel)
  obtain ⟨risk, member⟩ := given
  refine ⟨risk, member, fun risk' there => ?_⟩
  have differs := List.all_eq_true.mp (List.all_eq_true.mp changed risk' there) risk member
  rw [Bool.not_eq_true'] at differs
  exact differs

end Risks

end StateStore

end CarbonLab.Aegis
