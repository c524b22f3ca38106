import CarbonLab.Aegis.Implement
import CarbonLab.Aegis.TaskFields

/-!
# What a save asks of the history of a task

A save compares a task with what it was, numbers its moves and brings it to schema 4.  What
this asks of the stored task, whatever the save changes: the numbers of its moves grow, no
field of a cycle that is compared is a NaN, and its local waivers are those of schema 4.
-/

namespace CarbonLab.Aegis

namespace StateStore

open TaskSchema

variable {host : Host} {id : Text} {task : Json}

/-! ## Moves -/

/-- The revision of a move, which is its position where it has none. -/
def revisionOf (index : ℤ) (move : Json) : Option ℤ := (move.getD "revision" (.int index)).int?

/-- The revisions of moves grow, and no epoch of a move is something else than a number. -/
def Ascends : (index last : ℤ) → List Json → Prop
  | _, _, [] => True
  | index, last, move :: moves =>
      ∃ revision, revisionOf index move = some revision ∧ last < revision ∧
        (move.getD "epoch" (.int 0)).int?.isSome = true ∧ Ascends (index + 1) revision moves

/-- The revision of the last move. -/
def lastNumber : (index last : ℤ) → List Json → ℤ
  | _, last, [] => last
  | index, last, move :: moves => lastNumber (index + 1) ((revisionOf index move).getD last) moves

section

variable {versioned : Bool} {from_ reached : Text} {last last' index epoch : ℤ}
  {move : Json} {moves moved : List Json}

theorem get_setDefault_self {value default : Json} {key : Text} (object : value.obj?.isSome = true) :
    (setDefault value key default).get key = value.getD key default := by
  rw [setDefault]
  split
  · next there =>
      obtain ⟨found, is⟩ := Option.isSome_iff_exists.mp there
      rw [Json.get, Json.getD, Json.getD, is]
      rfl
  · next absent =>
      rw [Option.not_isSome_iff_eq_none] at absent
      rw [Json.get_set_self object, Json.getD, absent, Option.getD_none]

/-- A move with its revision and its epoch. -/
theorem numbered_move (object : move.obj?.isSome = true) :
    let numbered := setDefault (setDefault move "revision" (.int index)) "epoch" (.int epoch)
    (numbered.get "revision").int? = revisionOf index move ∧
      (numbered.get "epoch").int?.isSome = (move.getD "epoch" (.int 0)).int?.isSome := by
  dsimp only
  rw [get_setDefault_of_ne (by simp), get_setDefault_self object,
    get_setDefault_self (isSome_setDefault.trans object)]
  refine ⟨rfl, ?_⟩
  rw [Json.getD, get?_setDefault_of_ne (by simp), Json.getD]
  cases move.get? "epoch" with
  | none => rfl
  | some found => rfl

/-- The moves of a valid task, numbered by a migration, are valid under schema 4 when their
numbers grow. -/
theorem validateMoves_migrated (valid : validateMoves versioned from_ last' moves = .ok reached)
    (numbers : migrateMoves index epoch moves = .ok moved) :
    validateMoves true from_ last moved = .ok reached ↔ Ascends index last moves := by
  induction moves generalizing from_ last' last index epoch moved with
  | nil =>
      cases numbers
      exact iff_of_true valid trivial
  | cons move moves ih =>
      simp only [migrateMoves, bind_eq_ok] at numbers
      obtain ⟨_, _, starts, _, rest, numbers, same⟩ := numbers
      cases same
      simp only [validateMoves, bind_eq_ok, require_eq_ok, exists_const] at valid
      obtain ⟨start, fetched, begins, known, allowed, rfl, valid⟩ := valid
      obtain ⟨object, is⟩ := fetch_eq_ok.mp fetched
      have kept {key : Text} (revision : text "revision" ≠ key) (epoch' : text "epoch" ≠ key)
          (epoch : ℤ) : (setDefault (setDefault move "revision" (.int index)) "epoch"
            (.int epoch)).get key = move.get key := by
        rw [get_setDefault_of_ne epoch', get_setDefault_of_ne revision]
      have walks : ∃ last'', isText (move.get "reason") = true ∧
          (move.get "at").str?.isSome = true ∧
          validateMoves versioned ((move.get "to").str?.getD []) last'' moves = .ok reached := by
        split at valid
        · split at valid
          · simp only [require_bind_eq_ok, pure_bind] at valid
            obtain ⟨_, _, told, rest⟩ := valid
            exact ⟨_, told.1, told.2, rest⟩
          · cases valid
        · simp only [require_bind_eq_ok, pure_bind] at valid
          obtain ⟨told, rest⟩ := valid
          exact ⟨_, told.1, told.2, rest⟩
      obtain ⟨last'', reason, moment, walks⟩ := walks
      have numbered := @numbered_move index (if starts = true then epoch + 1 else epoch) move object
      dsimp only at numbered
      rw [Ascends, validateMoves]
      simp only [bind_eq_ok, require_eq_ok, exists_const, if_true,
        kept (by simp : text "revision" ≠ text "to") (by simp),
        kept (by simp : text "revision" ≠ text "reason") (by simp),
        kept (by simp : text "revision" ≠ text "at") (by simp), numbered.1, ← numbered.2]
      constructor
      · rintro ⟨_, _, _, _, _, _, rest⟩
        split at rest
        · next revision is =>
            simp only [require_bind_eq_ok, pure_bind] at rest
            obtain ⟨grows, epoch', _, rest⟩ := rest
            exact ⟨revision, is, grows, epoch', (ih walks numbers).mp rest⟩
        · cases rest
      · rintro ⟨revision, counted, grows, epoch', rest⟩
        refine ⟨start, ?_, begins, _, allowed, rfl, ?_⟩
        · refine fetch_eq_ok.mpr ⟨isSome_setDefault.trans (isSome_setDefault.trans object), ?_⟩
          rw [kept (by simp) (by simp), is]
        · rw [counted]
          simp only [require_bind_eq_ok, pure_bind]
          exact ⟨grows, epoch', ⟨reason, moment⟩, (ih walks numbers).mpr rest⟩

theorem lastRevision_migrated (numbers : migrateMoves index epoch moves = .ok moved) :
    lastRevision last moved = lastNumber index last moves := by
  induction moves generalizing last index epoch moved with
  | nil =>
      cases numbers
      rfl
  | cons move moves ih =>
      simp only [migrateMoves, bind_eq_ok] at numbers
      obtain ⟨_, fetched, starts, _, rest, numbers, same⟩ := numbers
      cases same
      rw [lastRevision, lastNumber, ih numbers]
      exact congrArg (fun number : Option ℤ => lastNumber (index + 1) (number.getD last) moves)
        (numbered_move (fetch_eq_ok.mp fetched).1).1

end

/-! ## The comparison of a task with itself -/

/-- The fields of a cycle that no validator looks at and that a later one is compared by. -/
def comparedFields : List Text :=
  ["remediation", "discovered_epoch", "designed_at_revision", "baseline_epoch"]

/-- Every cycle of the task agrees with itself: none of these fields is a NaN. -/
def Comparable (task : Json) : Prop :=
  ∀ cycle ∈ cyclesOf task, ∀ field ∈ comparedFields, (cycle.get field).isNan = false

theorem isNan_of_equal_int {value : Json} {number : ℤ} (same : value.equal (.int number) = true) :
    value.isNan = false := by
  by_contra nan
  have is : value.number? = some .nan := by simpa [Json.isNan] using nan
  obtain ⟨number', _, compared⟩ := Json.number_of_equal is same
  simp [Numeral.equal] at compared

theorem isNan_of_any {value : Json} {check : Text → Bool} (passes : value.str?.any check = true) :
    value.isNan = false := by
  cases value with
  | str name => rfl
  | _ => cases passes

theorem isNan_of_created {gate : Json} {key : Text} {default : ℤ}
    (created : isAtLeast 0 (gate.getD key (.int default)) = true) : (gate.get key).isNan = false := by
  rw [Json.getD] at created
  rw [Json.get, Json.getD]
  cases is : gate.get? key with
  | none => rfl
  | some value =>
      rw [is, Option.getD_some] at created
      cases value with
      | float bits => cases created
      | _ => rfl

section

variable {cycle : Json} {cycles : List Json}

/-- A valid cycle continues itself unless one of its fields is a NaN. -/
theorem validateCycleChange_self (formed : Assurance.CycleFormed host cycle) :
    validateCycleChange cycle cycle = .ok () ↔
      ∀ field ∈ comparedFields, (cycle.get field).isNan = false := by
  obtain ⟨first, later, eventsAre, _⟩ := formed.events
  have events : (listD cycle "events").arr? = some (first :: later) := by
    rw [listD, Json.getD]
    rw [Json.get, Json.getD] at eventsAre
    cases is : cycle.get? "events" with
    | none =>
        rw [is] at eventsAre
        cases eventsAre
    | some value =>
        rw [is] at eventsAre
        exact eventsAre
  have prefix_ : extends_ ((listD cycle "events").arr?.getD []) (listD cycle "events") =
      .ok true := by
    rw [events, Json.arr?_eq_some.mp events]
    simp [extends_]
  have ended : ∃ known, inSet (cycle.get "status") ["TDD_CYCLE_ABORTED", "TDD_CYCLE_COMPLETE"] =
      .ok known := ⟨_, inSet_eq_ok.mpr ⟨hashable_of_isOneOf formed.status, rfl⟩⟩
  obtain ⟨known, ended⟩ := ended
  have whole : cycle.equal cycle = true := by
    obtain ⟨fields, is⟩ := Option.isSome_iff_exists.mp formed.object
    rw [Json.obj?_eq_some] at is
    rw [is, Json.equal_self]
    rfl
  have others : (cycle.get "schema").isNan = false ∧ (cycle.get "task_id").isNan = false ∧
      (cycle.get "cycle_id").isNan = false ∧ (cycle.get "mode").isNan = false ∧
      (cycle.get "test_contract_digest").isNan = false ∧
      (cycle.get "oracle_digest").isNan = false :=
    ⟨isNan_of_equal_int formed.schema, isNan_of_any formed.owner, isNan_of_any formed.named,
      isNan_of_any formed.mode, isNan_of_any formed.contract, isNan_of_any formed.oracle⟩
  have compared (field : Text) : (do return (← fetch cycle field).equal (cycle.get field)) =
      (Except.ok true : Except Raised Bool) ↔ (cycle.get field).isNan = false := by
    rw [fetch_eq_ok.mpr ⟨formed.object, rfl⟩, ok_bind, ← Json.equal_self]
    simp [pure, Except.pure]
  simp only [validateCycleChange, prefix_, ended, ok_bind, bind_eq_ok, require_eq_ok, exists_const,
    whole, implies_true, and_true, exists_eq_right, every_eq_true, compared, immutableCycleFields,
    comparedFields, List.forall_mem_cons, others, true_and]

theorem validateCycleChanges_self (formed : ∀ cycle ∈ cycles, Assurance.CycleFormed host cycle) :
    validateCycleChanges cycles cycles = .ok () ↔
      ∀ cycle ∈ cycles, ∀ field ∈ comparedFields, (cycle.get field).isNan = false := by
  induction cycles with
  | nil => simp [validateCycleChanges]
  | cons cycle cycles ih =>
      rw [List.forall_mem_cons] at formed
      rw [validateCycleChanges, unit_bind_eq_ok, validateCycleChange_self formed.1, ih formed.2,
        List.forall_mem_cons]

/-- Entries that are told apart continue themselves. -/
theorem validateEntries_self {field deleted rewritten : Text} {same : Json → Json → Bool}
    {entries : List Json} (named : Named entries) (is : task.get? field = some (.arr entries))
    (reflexive : ∀ entry ∈ entries, same entry entry = true) :
    validateEntries field same deleted rewritten task task = .ok () := by
  have list : listD task field = .arr entries := by rw [listD, Json.getD, is, Option.getD_some]
  have ids : idsOf entries = .ok (entries.map (·.get "id")) := by
    rw [idsOf, mapM_eq_ok, List.forall₂_map_right_iff, List.forall₂_same]
    intro entry member
    obtain ⟨name, id_, _⟩ := named.named entry member
    rw [id_]
    exact item_eq_ok.mpr (by rw [Json.get?_of_get_ne_null (by rw [id_]; simp), id_])
  have hashes : (entries.map (·.get "id")).forM hash = .ok () := by
    rw [forM_eq_ok, List.forall_mem_map]
    intro entry member
    obtain ⟨name, id_, _⟩ := named.named entry member
    rw [id_]
    rfl
  have kept : (entries.all fun entry => inList (entry.get "id") (entries.map (·.get "id"))) =
      true := by
    refine List.all_eq_true.mpr fun entry member => List.any_eq_true.mpr ?_
    exact ⟨_, List.mem_map_of_mem member, decide_eq_true (Json.alike_self _)⟩
  have sames : (entries.all fun entry =>
      (entries.reverse.find? fun earlier => (earlier.get "id").Alike (entry.get "id")).all
        (same entry)) = true := by
    refine List.all_eq_true.mpr fun entry member => ?_
    cases search : entries.reverse.find? fun earlier => (earlier.get "id").Alike (entry.get "id") with
    | none => rfl
    | some earlier =>
        obtain ⟨name, id_, _⟩ := named.named entry member
        have alike := List.find?_some search
        rw [id_, decide_eq_true_eq, Json.alike_str] at alike
        have inside := List.mem_reverse.mp (List.mem_of_find?_eq_some search)
        have one := List.inj_on_of_nodup_map named.apart inside member (alike.trans id_.symm)
        rw [one]
        exact reflexive entry member
  simp only [validateEntries, list, Json.arr?, Option.getD_some, iterate, ok_bind, ids, hashes, kept,
    sames, require, if_true]

end

section

variable {moved : List Json} {migrated : Json}

theorem itemsUnder_eq {field : Text} {items : List Json}
    (is : task.get? field = some (.arr items)) : itemsUnder task field = items := by
  rw [itemsUnder, listD, Json.getD, is]
  rfl

theorem cyclesOf_eq {tdd : Json} {cycles : List Json} (there : task.get? "tdd" = some tdd)
    (are : tdd.get? "cycles" = some (.arr cycles)) : cyclesOf task = cycles := by
  rw [cyclesOf, listD, Json.getD, Json.getD, there, Option.getD_some, are]
  rfl

/-- A migration keeps the cycles of a task. -/
theorem cyclesOf_migrated (before : Migrated host task moved migrated)
    (valid : ∀ tdd, task.get? "tdd" = some tdd → validateTdd host id tdd = .ok ()) :
    cyclesOf migrated = cyclesOf task := by
  have tdd := before.tdd
  rw [Json.getD] at tdd
  cases is : task.get? "tdd" with
  | none =>
      rw [is, Option.getD_none] at tdd
      have empty : cyclesOf task = [] := by
        rw [cyclesOf, listD, Json.getD, Json.getD, is]
        rfl
      rw [empty]
      refine cyclesOf_eq tdd ?_
      rw [get?_withDefaults_of_mem rfl (by simp [emptyTdd]) (by simp [emptyTdd] :
        (text "cycles", Json.arr []) ∈ emptyTdd)]
      rfl
  | some given =>
      rw [is, Option.getD_some] at tdd
      obtain ⟨cycles, contract⟩ := validateTdd_eq_ok.mp (valid given is)
      rw [withDefaults_eq contract.complete] at tdd
      rw [cyclesOf_eq tdd contract.cyclesAre, cyclesOf_eq is contract.cyclesAre]

/-- A valid task continues itself when no field of a cycle that is compared is a NaN. -/
theorem validateAppendOnly_self (valid : validateTask host task (some id) = .ok ())
    (before : Migrated host task moved migrated) :
    validateAppendOnly migrated migrated = .ok () ↔ Comparable task := by
  obtain ⟨header, tdd, _, lists, _⟩ := validateTask_eq_ok.mp valid
  obtain ⟨gates, risks, decisions, handoffs, evidence, moves, listed⟩ := validateLists_eq_ok.mp lists
  have formed := validateHeader_iff.mp header
  obtain ⟨record, cycles, there, contract⟩ := before.cycles tdd
  have apart : ∀ key ∈ immutableFields ++ [text "decisions", "child_history", "gates", "risks",
      "change_epoch"], key ∉ migratedFields host := by
    simp [immutableFields, migratedFields, migrationDefaults]
  have kept : ∀ key ∈ immutableFields ++ [text "decisions", "child_history", "gates", "risks",
      "change_epoch"], migrated.get? key = task.get? key :=
    fun key member => before.kept key (apart key member)
  have fields : ∀ field ∈ immutableFields, (migrated.get field).equal (migrated.get field) = true := by
    intro field member
    have same : migrated.get field = task.get field := by
      rw [Json.get, Json.getD, kept field (List.mem_append_left _ member), Json.get, Json.getD]
    rw [same, Json.equal_self]
    have texts := formed.texts
    simp only [List.forall_mem_cons] at texts
    simp only [immutableFields, List.mem_cons, List.not_mem_nil, or_false] at member
    rcases member with rfl | rfl | rfl | rfl | rfl | rfl
    · rw [formed.named.1]
      rfl
    · exact isNan_of_any texts.1
    · exact isNan_of_any formed.mode
    · exact isNan_of_any formed.complexity
    · exact isNan_of_any formed.risk
    · exact isNan_of_any texts.2.1
  have list {field : Text} {items : List Json} (is : migrated.get? field = some (.arr items)) :
      extends_ ((listD migrated field).arr?.getD []) (listD migrated field) = .ok true := by
    rw [listD, Json.getD, is]
    simp [Json.arr?, extends_]
  have lists : ∀ field ∈ [text "decisions", "child_history", "transitions"],
      extends_ ((listD migrated field).arr?.getD []) (listD migrated field) = .ok true := by
    simp only [List.forall_mem_cons, List.not_mem_nil, false_implies, implies_true, and_true]
    exact ⟨list ((kept _ (by simp)).trans listed.decisionsIs),
      list ((kept _ (by simp)).trans listed.handoffsIs), list before.moves_⟩
  obtain ⟨epoch, is, _⟩ := (valid_of_validateTask valid).epoch
  have epochIs : task.get? "change_epoch" = some (.int epoch) := by
    rw [Json.get?_of_get_ne_null (by rw [is]; simp), is]
  have stays := validateEpochChange_of_le ((kept _ (by simp)).trans epochIs)
    ((kept _ (by simp)).trans epochIs) le_rfl (by omega)
  have gates_ (deleted rewritten : Text) :
      validateEntries "gates" sameGate deleted rewritten migrated migrated = .ok () := by
    refine validateEntries_self (named_of_uniqueIds listed.gateIds)
      ((kept _ (by simp)).trans listed.gatesIs) fun gate member => ?_
    have formed := validateGate_iff.mp (listed.gates_ gate member)
    have level : (gate.get "gate_severity").isNan = false := by
      rcases formed.constitutional with absent | known
      · rw [absent]
        rfl
      · exact isNan_of_any known
    simp only [sameGate, Bool.and_eq_true, Json.equal_self]
    exact ⟨⟨⟨isNan_of_any formed.description, isNan_of_any formed.severity⟩, level⟩,
      isNan_of_created formed.created⟩
  have risks_ (deleted rewritten : Text) :
      validateEntries "risks" sameRisk deleted rewritten migrated migrated = .ok () := by
    refine validateEntries_self (named_of_uniqueIds listed.riskIds)
      ((kept _ (by simp)).trans listed.risksIs) fun risk member => ?_
    have formed := validateRisk_iff.mp (listed.risks_ risk member)
    simp only [sameRisk, Bool.and_eq_true, Json.equal_self]
    exact ⟨isNan_of_any formed.description, isNan_of_any formed.severity⟩
  have cyclesIs := fetchD_cycles there contract.cyclesAre
  have before_ : (listD (migrated.getD "tdd" (.obj [])) "cycles").arr?.getD [] = cycles :=
    cyclesOf_eq there contract.cyclesAre
  have changes := @validateCycleChanges_self host cycles fun cycle member =>
    (validateCycle_iff.mp (contract.each cycle member)).1
  have cyclesAre : cyclesOf task = cycles :=
    (cyclesOf_migrated before tdd).symm.trans (cyclesOf_eq there contract.cyclesAre)
  rw [Comparable, cyclesAre, ← changes]
  have items : (Json.arr cycles).arr? = some cycles := rfl
  simp only [validateAppendOnly, bind_eq_ok, forM_eq_ok, require_eq_ok, exists_eq_right, cyclesIs,
    Except.ok.injEq, exists_eq_left', items, before_, le_refl, stays, gates_, risks_,
    Unique.exists_iff, PUnit.default_eq_unit, true_and, and_true]
  exact (and_iff_right fields).trans (and_iff_right lists)

end

/-- What a save asks of a valid task, and what no save can change. -/
structure Continuable (task : Json) : Prop where
  local_ : ∀ gate ∈ itemsUnder task "gates", KeepsWaiver gate
  ascends : Ascends 1 (-1) (itemsUnder task "transitions")
  comparable : Comparable task

end StateStore

end CarbonLab.Aegis
