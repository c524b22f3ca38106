import CarbonLab.Aegis.TaskFields
import CarbonLab.Lib.Raises
import Mathlib.Data.List.Find

/-!
# Validators of arbitrary values

The validators look at values whose type they do not know.  Each one looks a value up in a
set, or calls its `get`, at some places before it knows that this is possible; it raises no
exception but its own exactly when every such place is safe, up to the first check that
fails.  The limits of the interpreter, on the depth of a recursion and on the digits of an
integer, are not part of this.
-/

namespace CarbonLab.Aegis

/-- A call returns, or raises one of these kinds of exceptions. -/
def Declares {α : Type} (kinds : List ErrorKind) (outcome : Except Raised α) : Prop :=
  Raises (fun raised => raised.kind ∈ kinds) outcome

section

variable {α : Type} {kinds : List ErrorKind} {value : Json} {names : List Text}
  {next : Bool → Except Raised α}

theorem declares_ok {result : α} : Declares kinds (.ok result : Except Raised α) := raises_ok

theorem declares_pure {result : α} : Declares kinds (pure result : Except Raised α) := raises_ok

theorem declares_throw {raised : Raised} :
    Declares kinds (throw raised : Except Raised α) ↔ raised.kind ∈ kinds := raises_throw

theorem declares_nil {outcome : Except Raised α} :
    Declares [] outcome ↔ ∃ result, outcome = .ok result := by
  rw [← raises_false_iff, Declares]
  simp only [List.not_mem_nil]

theorem declares_bind {β : Type} {first : Except Raised β} {rest : β → Except Raised α} :
    Declares kinds (first >>= rest) ↔
      Declares kinds first ∧ ∀ result, first = .ok result → Declares kinds (rest result) :=
  raises_bind

theorem declares_unit_bind {first : Except Raised Unit} {rest : Unit → Except Raised α} :
    Declares kinds (first >>= rest) ↔
      Declares kinds first ∧ (first = .ok () → Declares kinds (rest ())) := by
  rw [declares_bind]
  exact and_congr_right fun _ => ⟨fun all => all (), fun here _ => here⟩

theorem declares_require {condition : Prop} [Decidable condition] {raised : Raised} :
    Declares kinds (require condition raised) ↔ (¬ condition → raised.kind ∈ kinds) := by
  unfold require Declares
  split
  · next holds => simp [holds]
  · next fails => simp [fails]

theorem declares_require_bind {condition : Prop} [Decidable condition] {raised : Raised}
    {rest : Unit → Except Raised α} :
    Declares kinds (require condition raised >>= rest) ↔
      (¬ condition → raised.kind ∈ kinds) ∧ (condition → Declares kinds (rest ())) := by
  rw [declares_unit_bind, declares_require, require_eq_ok]

theorem declares_ite {condition : Prop} [Decidable condition] {first second : Except Raised α} :
    Declares kinds (if condition then first else second) ↔
      (condition → Declares kinds first) ∧ (¬ condition → Declares kinds second) := raises_ite

theorem declares_forM {items : List α} {check : α → Except Raised Unit} :
    Declares kinds (items.forM check) ↔ UntilFail (fun item => Declares kinds (check item))
      (fun item => check item = .ok ()) items := raises_forM

/-! ## Places that may be unsafe -/

theorem declares_hash (undeclared : ErrorKind.typeError ∉ kinds) :
    Declares kinds (hash value) ↔ Hashable value := by
  cases value with
  | arr items => simp [hash, Declares, Hashable, Json.arr?, undeclared]
  | obj fields => simp [hash, Declares, Hashable, Json.obj?, undeclared]
  | _ => simp [hash, Declares, Hashable, Json.arr?, Json.obj?]

theorem declares_inSet_bind (undeclared : ErrorKind.typeError ∉ kinds) :
    Declares kinds (inSet value names >>= next) ↔
      Hashable value ∧ Declares kinds (next (isOneOf value names)) := by
  have safe : Declares kinds (inSet value names) ↔ Hashable value := by
    cases value with
    | arr items => simp [inSet, Declares, Hashable, Json.arr?, undeclared]
    | obj fields => simp [inSet, Declares, Hashable, Json.obj?, undeclared]
    | _ => simp [inSet, Declares, Hashable, Json.arr?, Json.obj?]
  rw [← safe]
  exact raises_bind_of_ok fun declares => inSet_eq_ok.mpr ⟨safe.mp declares, rfl⟩

theorem declares_inNumbers_bind (undeclared : ErrorKind.typeError ∉ kinds) {numbers : List ℤ} :
    Declares kinds (inNumbers value numbers >>= next) ↔
      Hashable value ∧
        Declares kinds (next (numbers.any fun number => value.equal (.int number))) := by
  have safe : Declares kinds (inNumbers value numbers) ↔ Hashable value := by
    rw [inNumbers, declares_bind, declares_hash undeclared]
    exact and_iff_left fun _ _ => declares_pure
  rw [← safe]
  exact raises_bind_of_ok fun declares => inNumbers_eq_ok.mpr ⟨safe.mp declares, rfl⟩

theorem untilFail_hash {values : List Json} :
    UntilFail Hashable (fun value => hash value = .ok ()) values ↔
      ∀ value ∈ values, Hashable value := by
  induction values with
  | nil => simp [UntilFail]
  | cons value values ih =>
      rw [UntilFail, ih, List.forall_mem_cons]
      exact and_congr_right fun safe => forall_prop_of_true (hash_eq_ok.mpr safe)

theorem declares_distinct_bind (undeclared : ErrorKind.typeError ∉ kinds) {values : List Json} :
    Declares kinds (distinct values >>= next) ↔
      (∀ value ∈ values, Hashable value) ∧ Declares kinds (next (allDistinct values)) := by
  have safe : Declares kinds (distinct values) ↔ ∀ value ∈ values, Hashable value := by
    rw [distinct, declares_bind, declares_forM, and_iff_left fun _ _ => declares_pure]
    simp only [declares_hash undeclared]
    exact untilFail_hash
  rw [← safe]
  exact raises_bind_of_ok fun declares => distinct_eq_ok.mpr ⟨safe.mp declares, rfl⟩

theorem declares_fetch (undeclared : ErrorKind.attributeError ∉ kinds) {key : Text} :
    Declares kinds (fetch value key) ↔ value.obj?.isSome := by
  cases value with
  | obj fields => simp [Declares, Json.obj?]
  | _ => simp [fetch, fetchD, noGet, Declares, Json.obj?, undeclared]

theorem declares_fetch_bind (undeclared : ErrorKind.attributeError ∉ kinds) {key : Text}
    {rest : Json → Except Raised α} :
    Declares kinds (fetch value key >>= rest) ↔
      value.obj?.isSome ∧ Declares kinds (rest (value.get key)) := by
  rw [← @declares_fetch kinds value undeclared key]
  exact raises_bind_of_ok fun declares =>
    fetch_eq_ok.mpr ⟨(declares_fetch undeclared).mp declares, rfl⟩

/-- Items that are read one after the other, each of them where it is safe. -/
theorem declares_mapM_bind {β : Type} {read : Json → Except Raised β} {safe : Json → Prop}
    {result : Json → β} (declares : ∀ item, Declares kinds (read item) ↔ safe item)
    (reads : ∀ item, safe item → read item = .ok (result item)) {items : List Json}
    {rest : List β → Except Raised α} :
    Declares kinds (items.mapM read >>= rest) ↔
      (∀ item ∈ items, safe item) ∧ Declares kinds (rest (items.map result)) := by
  have all : Declares kinds (items.mapM read) ↔ ∀ item ∈ items, safe item := by
    induction items with
    | nil => simp [declares_pure]
    | cons item items ih =>
        rw [List.mapM_cons, declares_bind, declares, List.forall_mem_cons]
        refine and_congr_right fun here => ?_
        simp only [declares_bind, declares_pure, implies_true, and_true, ih]
        exact ⟨fun later => later _ (reads item here), fun later _ _ => later⟩
  rw [← all]
  refine raises_bind_of_ok fun done => mapM_eq_ok.mpr ?_
  rw [List.forall₂_map_right_iff, List.forall₂_same]
  exact fun item member => reads item (all.mp done item member)

end

/-! ## Cycles and receipts -/

/-- The places of a cycle that `validate_tdd_cycle` looks at. -/
def CycleSafe (cycle : Json) : Prop :=
  cycle.obj?.isSome ∧ (cycle.get "schema").equal (.int 1) = true →
  Assurance.isId (cycle.get "task_id") = true → Assurance.isId (cycle.get "cycle_id") = true →
  Hashable (cycle.get "mode") ∧
    (isOneOf (cycle.get "mode") (Assurance.tddModes.map (·.1)) = true →
      Hashable (cycle.get "status") ∧
        (isOneOf (cycle.get "status") Assurance.tddStatuses = true →
          isSha256 (cycle.get "test_contract_digest") = true →
          isSha256 (cycle.get "oracle_digest") = true →
          ∀ first rest, (cycle.get "events").arr? = some (first :: rest) →
            first.obj?.isSome ∧
              ((first.get "status").equal (.str "TEST_DESIGNED") = true →
                UntilFail (fun event => Hashable (event.get "status"))
                  Assurance.EventFormed (first :: rest))))

/-- The place of a falsification receipt that its validator looks at. -/
def FalsificationSafe (host : Host) (receipt : Json) : Prop :=
  Assurance.ReceiptFormed host receipt → Hashable (receipt.get "outcome")

section

variable {host : Host} {kinds : List ErrorKind}

theorem hashable_get_of_obj?_isNone {value : Json} {key : Text} (flat : value.obj? = none) :
    Hashable (value.get key) := by
  cases value with
  | obj fields => cases flat
  | _ => exact ⟨rfl, rfl⟩

theorem declares_validateEvent (undeclared : ErrorKind.typeError ∉ kinds) {event : Json} :
    Declares kinds (Assurance.validateEvent event) ↔ Hashable (event.get "status") := by
  have known := @declares_inSet_bind Bool kinds (event.get "status") Assurance.tddStatuses pure
    undeclared
  rw [bind_pure, and_iff_left declares_pure] at known
  cases event with
  | obj fields => exact known
  | _ => exact iff_of_true declares_ok ⟨rfl, rfl⟩

theorem declares_every {check : Json → Except Raised Bool} {items : List Json} :
    Declares kinds (every check items) ↔ UntilFail (fun item => Declares kinds (check item))
      (fun item => check item = .ok true) items := by
  induction items with
  | nil => exact iff_of_true declares_ok trivial
  | cons item items ih =>
      rw [every, declares_bind, UntilFail, ← ih]
      refine and_congr_right fun _ => ⟨fun rest passes => rest true passes, fun rest passed => ?_⟩
      cases passed with
      | false => exact fun _ => declares_pure
      | true => exact rest

theorem declares_validateTddCycle (own : ErrorKind.assuranceError ∈ kinds)
    (untyped : ErrorKind.typeError ∉ kinds) (getless : ErrorKind.attributeError ∉ kinds)
    {cycle : Json} : Declares kinds (Assurance.validateTddCycle host cycle) ↔ CycleSafe cycle := by
  have allowed (message : Text) : (assuranceError message).kind ∈ kinds := own
  unfold Assurance.validateTddCycle CycleSafe Assurance.requireDigest
  simp only [declares_require_bind, declares_inSet_bind untyped, allowed, implies_true, true_and]
  refine imp_congr_right fun _ => imp_congr_right fun _ => imp_congr_right fun _ =>
    and_congr_right fun _ => imp_congr_right fun _ => and_congr_right fun _ =>
    imp_congr_right fun _ => imp_congr_right fun _ => imp_congr_right fun _ => ?_
  cases is : (cycle.get "events").arr? with
  | none => simp [declares_throw, allowed]
  | some events =>
      cases events with
      | nil => simp [declares_throw, allowed]
      | cons first rest =>
          simp only [Option.some.injEq, List.cons.injEq, declares_fetch_bind getless,
            declares_require_bind, allowed, implies_true, true_and]
          simp only [declares_bind, declares_every, declares_validateEvent untyped,
            Assurance.validateEvent_iff, declares_require, allowed, implies_true, and_true]
          constructor
          · rintro safe _ _ ⟨rfl, rfl⟩
            exact safe
          · exact fun safe => safe _ _ ⟨rfl, rfl⟩

theorem declares_validateFalsificationReceipt (untyped : ErrorKind.typeError ∉ kinds) {receipt : Json}
    {expected : Assurance.Falsified} {clean : Bool} :
    Declares kinds (Assurance.validateFalsificationReceipt host receipt expected clean) ↔
      FalsificationSafe host receipt := by
  unfold Assurance.validateFalsificationReceipt FalsificationSafe
  simp only [← Assurance.wellFormedFalsification_iff, declares_ite, declares_inSet_bind untyped, declares_pure, implies_true, and_true]

/-- A receipt of an accepted review, up to its findings. -/
structure ReviewFormed (host : Host) (receipt : Json) : Prop where
  object : receipt.obj?.isSome = true
  sealed_ : (receipt.get "receipt_sha256").equal
    (.str (host.digest (receipt.erase "receipt_sha256"))) = true
  schema : (receipt.get "schema").equal (.int 1) = true
  accepted : (receipt.get "outcome").equal (.str "ACCEPTED") = true
  challenged : ∀ field ∈ [text "assumptions_tested", "counterexamples_attempted",
    "boundary_cases", "potential_failures"],
    (receipt.get field).arr?.isSome = true ∧ (receipt.get field).truthy = true

/-- A finding of a severity that blocks an acceptance is resolved. -/
def Resolved (finding : Json) : Prop :=
  isOneOf (finding.get "severity") ["HARD", "CRITICAL", "HIGH"] = true →
    (finding.getD "status" (.str "OPEN")).equal (.str "RESOLVED") = true

/-- The places of a review receipt that its validator looks at: the findings are a list, an
object or a string, and no severity is a list or an object up to the first finding that is
not resolved. -/
def ReviewSafe (host : Host) (receipt : Json) : Prop :=
  ReviewFormed host receipt →
    ((receipt.getD "findings" (.arr [])).arr?.isSome = true ∨
      (receipt.getD "findings" (.arr [])).obj?.isSome = true ∨
      (receipt.getD "findings" (.arr [])).str?.isSome = true) ∧
    ∀ findings, (receipt.getD "findings" (.arr [])).arr? = some findings →
      UntilFail (fun finding => Hashable (finding.get "severity")) Resolved findings

theorem reviewFormed_iff {receipt : Json} :
    (Review.intact host receipt && (receipt.get "schema").equal (.int 1) &&
      (receipt.get "outcome").equal (.str "ACCEPTED") &&
      Review.requiredChallengeFields.all (fun field =>
        (receipt.get field).arr?.isSome && (receipt.get field).truthy)) = true ↔
      ReviewFormed host receipt := by
  simp only [Review.intact, Bool.and_eq_true, List.all_eq_true]
  constructor
  · rintro ⟨⟨⟨⟨object, sealed_⟩, schema⟩, accepted⟩, challenged⟩
    exact ⟨object, sealed_, schema, accepted, challenged⟩
  · rintro ⟨object, sealed_, schema, accepted, challenged⟩
    exact ⟨⟨⟨⟨object, sealed_⟩, schema⟩, accepted⟩, challenged⟩

theorem declares_some_ {check : Json → Except Raised Bool} {items : List Json} :
    Declares kinds (some_ check items) ↔ UntilFail (fun item => Declares kinds (check item))
      (fun item => check item = .ok false) items := by
  induction items with
  | nil => exact iff_of_true declares_ok trivial
  | cons item items ih =>
      rw [some_, declares_bind, UntilFail, ← ih]
      refine and_congr_right fun _ => ⟨fun rest passes => rest false passes, fun rest passed => ?_⟩
      cases passed with
      | false => exact rest
      | true => exact fun _ => declares_pure

theorem declares_blocking (untyped : ErrorKind.typeError ∉ kinds) {finding : Json} :
    Declares kinds (Review.blocking finding) ↔ Hashable (finding.get "severity") := by
  cases finding with
  | obj fields =>
      unfold Review.blocking
      simp only [declares_inSet_bind untyped, declares_ite, declares_pure, implies_true, and_true]
  | _ => exact iff_of_true declares_ok ⟨rfl, rfl⟩

theorem blocking_eq_false {finding : Json} (safe : Hashable (finding.get "severity")) :
    Review.blocking finding = .ok false ↔ Resolved finding := by
  cases finding with
  | obj fields =>
      rw [Review.blocking, inSet_bind_eq_ok, and_iff_right safe, Resolved]
      split
      · next severe => simp [severe, pure, Except.pure]
      · next mild => simp [mild, pure, Except.pure]
  | _ => exact iff_of_true rfl fun severe => absurd severe Bool.false_ne_true

/-- Findings that are strings are no objects. -/
theorem untilFail_of_strings {α : Type} {items : List α} {name : α → Text} :
    UntilFail (fun finding => Hashable (finding.get "severity"))
      (fun finding => Review.blocking finding = .ok false)
      (items.map fun item => Json.str (name item)) := by
  refine untilFail_of_forall ?_
  rw [List.forall_mem_map]
  exact fun _ _ => ⟨rfl, rfl⟩

theorem declares_findings (untyped : ErrorKind.typeError ∉ kinds) {value : Json} :
    Declares kinds (iterate value >>= some_ Review.blocking) ↔
      (value.arr?.isSome = true ∨ value.obj?.isSome = true ∨ value.str?.isSome = true) ∧
        ∀ findings, value.arr? = some findings →
          UntilFail (fun finding => Hashable (finding.get "severity")) Resolved findings := by
  have blocks {findings : List Json} : Declares kinds (some_ Review.blocking findings) ↔
      UntilFail (fun finding => Hashable (finding.get "severity"))
        (fun finding => Review.blocking finding = .ok false) findings := by
    simp only [declares_some_, declares_blocking untyped]
  cases value with
  | arr findings =>
      rw [iterate, ok_bind, blocks, untilFail_congr fun finding => blocking_eq_false]
      simp [Json.arr?]
  | obj fields =>
      rw [iterate, ok_bind, blocks]
      exact iff_of_true untilFail_of_strings (by simp [Json.arr?, Json.obj?])
  | str string =>
      rw [iterate, ok_bind, blocks]
      exact iff_of_true untilFail_of_strings (by simp [Json.arr?, Json.str?])
  | _ =>
      refine iff_of_false (fun declares => untyped (declares _ rfl)) ?_
      simp [Json.arr?, Json.obj?, Json.str?]

theorem declares_validateReviewReceipt (untyped : ErrorKind.typeError ∉ kinds) {receipt : Json}
    {expected : Review.Reviewed} :
    Declares kinds (Review.validateReviewReceipt host receipt expected) ↔
      ReviewSafe host receipt := by
  unfold Review.validateReviewReceipt ReviewSafe
  simp only [declares_ite, declares_pure, implies_true, and_true, reviewFormed_iff]
  refine imp_congr_right fun _ => ?_
  rw [← declares_findings untyped, ← bind_assoc, declares_bind]
  simp only [declares_ite, declares_pure, implies_true, and_true]

end

/-! ## Waivers -/

/-- `{record["id"]: record for record in records}` -/
def recordsById (records : List Json) : Json :=
  .obj (Fields.ofPairs (records.map fun record => ((record.get "id").str?.getD [], record)))

/-- A membership test that does not raise. -/
def CanContain (container value : Json) : Prop :=
  container.arr?.isSome ∨ (container.str?.isSome ∧ value.str?.isSome) ∨
    (container.obj?.isSome ∧ Hashable value)

/-- A membership test that holds. -/
def Contained (container value : Json) : Prop :=
  (∃ items, container = .arr items ∧ inList value items = true) ∨
    (∃ string part, container = .str string ∧ value = .str part ∧ part <:+: string) ∨
    ∃ fields name, container = .obj fields ∧ value = .str name ∧ name ∈ fields.map (·.1)

/-- A gate that has been waived for a reason. -/
structure WaivedGate (gate : Json) : Prop where
  object : gate.obj?.isSome = true
  waived : (gate.get "status").equal (.str "WAIVED") = true
  required : (gate.get "gate_severity").equal (.str "REQUIRED") = true
  reason : isText (gate.get "waiver_reason") = true

/-- A record of a task from an external source. -/
structure ExternalRecord (record : Json) (evidenceId : Text) (task : Json) (epoch : ℤ) : Prop where
  object : record.obj?.isSome = true
  schema : (record.get "schema").equal (.int 2) = true
  named : (record.get "id").equal (.str evidenceId) = true
  owner : (record.get "task_id").equal task = true
  epoch_ : (record.get "change_epoch").equal (.int epoch) = true
  provenance : (record.get "provenance").equal (.str "external-source") = true
  details : (record.get "details").obj?.isSome = true

/-- The places of a gate and of the record of its waiver that the validator looks at. -/
def WaiverSafe (gate records task : Json) (epoch : ℤ) : Prop :=
  WaivedGate gate →
    ∀ evidenceId, gate.get "waiver_evidence" = .str evidenceId → text "E-" <+: evidenceId →
      ExternalRecord (records.get evidenceId) evidenceId task epoch →
      CanContain (((records.get evidenceId).get "details").getD "gate_ids" (.arr []))
          (gate.get "id") ∧
        (Contained (((records.get evidenceId).get "details").getD "gate_ids" (.arr []))
            (gate.get "id") →
          Hashable ((((records.get evidenceId).get "details").get "waiver_authority").get "kind"))

section

variable {kinds : List ErrorKind} {gate task : Json} {epoch : ℤ}

theorem declares_contains (untyped : ErrorKind.typeError ∉ kinds) {container value : Json} :
    Declares kinds (contains container value) ↔ CanContain container value := by
  cases container with
  | arr items => exact iff_of_true declares_ok (Or.inl rfl)
  | str string =>
      cases value with
      | str part => exact iff_of_true declares_ok (Or.inr (Or.inl ⟨rfl, rfl⟩))
      | _ => simp [contains, Declares, CanContain, Json.arr?, Json.str?, Json.obj?, untyped]
  | obj fields =>
      rw [contains, declares_bind, declares_hash untyped, and_iff_left fun _ _ => declares_pure]
      simp [CanContain, Json.arr?, Json.str?, Json.obj?]
  | _ => simp [contains, Declares, CanContain, Json.arr?, Json.str?, Json.obj?, untyped]

theorem contains_eq_true {container value : Json} :
    contains container value = .ok true ↔ Contained container value := by
  unfold Contained
  cases container with
  | arr items => simp [contains]
  | str string =>
      cases value with
      | str part => simp [contains, List.infix_iff_prefix_suffix, and_comm]
      | _ => simp [contains]
  | obj fields =>
      rw [contains, unit_bind_eq_ok, hash_eq_ok]
      simp only [pure, Except.pure, Except.ok.injEq, List.any_eq_true, Json.str_equal]
      constructor
      · rintro ⟨-, field, member, rfl⟩
        exact Or.inr (Or.inr ⟨fields, field.1, rfl, rfl, List.mem_map_of_mem member⟩)
      · rintro (⟨_, same, _⟩ | ⟨_, _, same, _⟩ | ⟨_, name, same, rfl, member⟩)
        · cases same
        · cases same
        · cases same
          obtain ⟨field, inside, rfl⟩ := List.mem_map.mp member
          exact ⟨⟨rfl, rfl⟩, field, inside, rfl⟩
  | _ => simp [contains]

theorem waivedGate_iff : (gate.obj?.isSome && (gate.get "status").equal (.str "WAIVED") &&
    (gate.get "gate_severity").equal (.str "REQUIRED") &&
    isText (gate.get "waiver_reason")) = true ↔ WaivedGate gate := by
  simp only [Bool.and_eq_true]
  constructor
  · rintro ⟨⟨⟨object, waived⟩, required⟩, reason⟩
    exact ⟨object, waived, required, reason⟩
  · rintro ⟨object, waived, required, reason⟩
    exact ⟨⟨⟨object, waived⟩, required⟩, reason⟩

theorem externalRecord_iff {record : Json} {evidenceId : Text} :
    (startsWith "E-" evidenceId && isWaiverRecord record evidenceId task epoch &&
      (record.get "details").obj?.isSome) = true ↔
      text "E-" <+: evidenceId ∧ ExternalRecord record evidenceId task epoch := by
  simp only [isWaiverRecord, startsWith, Bool.and_eq_true, List.isPrefixOf_iff_prefix]
  constructor
  · rintro ⟨⟨begins, ⟨⟨⟨⟨object, schema⟩, named⟩, owner⟩, epoch_⟩, provenance⟩, details⟩
    exact ⟨begins, object, schema, named, owner, epoch_, provenance, details⟩
  · rintro ⟨begins, object, schema, named, owner, epoch_, provenance, details⟩
    exact ⟨⟨begins, ⟨⟨⟨⟨object, schema⟩, named⟩, owner⟩, epoch_⟩, provenance⟩, details⟩

theorem declares_gateWaiver (untyped : ErrorKind.typeError ∉ kinds) {records : Json} :
    Declares kinds (gateWaiver gate records.get task epoch) ↔
      WaiverSafe gate records task epoch := by
  unfold gateWaiver WaiverSafe
  simp only [declares_ite, declares_pure, implies_true, and_true, waivedGate_iff]
  refine imp_congr_right fun _ => ?_
  cases is : gate.get "waiver_evidence" with
  | str evidenceId =>
      simp only [Json.str?, Json.str.injEq, forall_eq', declares_ite, declares_pure, implies_true,
        and_true, externalRecord_iff, and_imp]
      refine imp_congr_right fun _ => imp_congr_right fun _ => ?_
      rw [declares_bind, declares_contains untyped]
      refine and_congr_right fun _ => ⟨fun rest holds => ?_, fun rest passed is => ?_⟩
      · have known := rest true (contains_eq_true.mpr holds)
        simp only [declares_ite, declares_inSet_bind untyped, declares_pure, implies_true,
          and_true] at known
        cases object : (((records.get evidenceId).get "details").get "waiver_authority").obj? with
        | none => exact hashable_get_of_obj?_isNone object
        | some fields => exact known trivial (by rw [object]; rfl)
      · cases passed with
        | false => exact declares_pure
        | true =>
            simp only [declares_ite, declares_inSet_bind untyped, declares_pure, implies_true,
              and_true]
            exact fun _ _ => rest (contains_eq_true.mp is)
  | _ => simp [Json.str?, declares_pure]

/-- Of the values under one key, a dictionary keeps the last. -/
theorem get?_ofPairs_eq {pairs : List (Text × Json)} {key : Text} :
    Fields.get? key (Fields.ofPairs pairs) =
      (pairs.reverse.find? fun pair => pair.1 = key).map (·.2) := by
  induction pairs using List.reverseRecOn with
  | nil => rfl
  | append_singleton pairs pair ih =>
      have last : Fields.ofPairs (pairs ++ [pair]) =
          Fields.set pair.1 pair.2 (Fields.ofPairs pairs) := by
        rw [Fields.ofPairs, List.foldl_append]
        rfl
      rw [last, Fields.get?_set, List.reverse_append, List.reverse_singleton, List.singleton_append,
        List.find?_cons, ih]
      by_cases same : pair.1 = key
      · simp [same]
      · simp [same]

theorem get_recordsById {records : List Json}
    (named : ∀ record ∈ records, (record.get "id").str?.isSome) {evidenceId : Text} :
    (recordsById records).get evidenceId =
      (records.reverse.find? fun record => (record.get "id").equal (.str evidenceId)).getD .null := by
  rw [recordsById, Json.get, Json.getD, Json.get?, Json.obj?, Option.bind_some, get?_ofPairs_eq,
    ← List.map_reverse, List.find?_map, Option.map_map]
  have same : records.reverse.find? ((fun pair : Text × Json => decide (pair.1 = evidenceId)) ∘
      fun record => ((record.get "id").str?.getD [], record)) =
      records.reverse.find? fun record => (record.get "id").equal (.str evidenceId) := by
    refine List.find?_congr fun record member => ?_
    obtain ⟨id, is⟩ := Option.isSome_iff_exists.mp (named record (List.mem_reverse.mp member))
    rw [Json.str?_eq_some] at is
    rw [Bool.eq_iff_iff, Json.equal_str]
    simp [is, Json.str?]
  rw [same]
  cases records.reverse.find? fun record => (record.get "id").equal (.str evidenceId) with
  | none => rfl
  | some record => rfl

/-- The validator of the store is the one of the records by their identifiers. -/
theorem validateGateWaiver_eq {records : List Json}
    (named : ∀ record ∈ records, (record.get "id").str?.isSome) :
    validateGateWaiver gate records task epoch =
      gateWaiver gate (recordsById records).get task epoch := by
  rw [validateGateWaiver]
  simp only [← get_recordsById named]

end

end CarbonLab.Aegis
