import CarbonLab.Aegis.Evidence

/-!
# What a verified ledger binds

The records that pass `_validate_record` one after the other form a hash chain, so the
head digest of an anchor determines them.
-/

namespace CarbonLab.Aegis

namespace Evidence

variable {host : Host} {task : Text}

/-- A record without its digest. -/
def bodyOf (record : Json) : Json := record.erase "record_sha256"

/-- What a record says of itself passes the checks. -/
theorem validateRecord_eq_ok {line : ℕ} {previous record : Json} :
    validateRecord host task line previous record = .ok () ↔
      record.obj?.isSome ∧ record.get "record_sha256" = .str (host.digest (bodyOf record)) ∧
        validateBody task line (bodyOf record) previous = .ok () := by
  rw [validateRecord]
  simp only [bind_eq_ok, require_eq_ok, exists_const, Json.equal_str, bodyOf]

/-- The part of the checks that later ones rely on. -/
theorem validateBody_facts {line : ℕ} {previous body : Json}
    (valid : validateBody task line body previous = .ok ()) :
    (body.get "previous_sha256").equal previous = true ∧
      (∃ id, body.get "id" = .str id ∧ startsWith "E-" id = true) := by
  rw [validateBody] at valid
  simp only [bind_eq_ok, require_eq_ok, exists_const] at valid
  obtain ⟨linked, _, named, _⟩ := valid
  refine ⟨linked, ?_⟩
  obtain ⟨id, is, starts⟩ := (Option.any_eq_true _ _).mp named
  exact ⟨id, Json.str?_eq_some.mp is, starts⟩

/-- Records that pass `_validate_record` one after the other. -/
def Chained (host : Host) (task : Text) : (line : ℕ) → (previous : Json) → List Json → Prop
  | _, _, [] => True
  | line, previous, record :: records =>
      validateRecord host task line previous record = .ok () ∧
        Chained host task (line + 1) (record.get "record_sha256") records

theorem chained_append {line : ℕ} {previous : Json} {first second : List Json} :
    Chained host task line previous (first ++ second) ↔
      Chained host task line previous first ∧
        Chained host task (line + first.length)
          (HashChain.endMark (·.get "record_sha256") previous first) second := by
  induction first generalizing line previous with
  | nil => simp [Chained]
  | cons record first ih =>
      rw [List.cons_append, Chained, ih, Chained, HashChain.endMark_cons, List.length_cons,
        and_assoc, Nat.add_right_comm, Nat.add_assoc]

theorem Chained.mem {line : ℕ} {previous : Json} {records : List Json}
    (chained : Chained host task line previous records) {record : Json} (member : record ∈ records) :
    ∃ line previous, validateRecord host task line previous record = .ok () := by
  induction records generalizing line previous with
  | nil => cases member
  | cons first records ih =>
      rcases List.mem_cons.mp member with rfl | member
      · exact ⟨line, previous, chained.1⟩
      · exact ih chained.2 member

/-- The digest of a valid record. -/
theorem digest_of_valid {line : ℕ} {previous record : Json}
    (valid : validateRecord host task line previous record = .ok ()) :
    record.get "record_sha256" = .str (host.digest (bodyOf record)) :=
  (validateRecord_eq_ok.mp valid).2.1

/-- The identifier of a valid record. -/
theorem id_of_valid {line : ℕ} {previous record : Json}
    (valid : validateRecord host task line previous record = .ok ()) :
    ∃ id, record.get "id" = .str id ∧ startsWith "E-" id = true := by
  obtain ⟨_, _, body⟩ := validateRecord_eq_ok.mp valid
  obtain ⟨id, is, starts⟩ := (validateBody_facts body).2
  rw [bodyOf, Json.get_erase _ (by simp)] at is
  exact ⟨id, is, starts⟩

/-- A value that is `None` or a string. -/
def NoneOrText (value : Json) : Prop := value = .null ∨ ∃ string, value = .str string

theorem equal_of_noneOrText {value other : Json} (known : NoneOrText other) :
    value.equal other = true ↔ value = other := by
  rcases known with rfl | ⟨string, rfl⟩
  · exact Json.equal_null
  · exact Json.equal_str

theorem noneOrText_headOf {records : List Json} {line : ℕ} {previous : Json}
    (known : NoneOrText previous) (chained : Chained host task line previous records) :
    NoneOrText (HashChain.endMark (·.get "record_sha256") previous records) := by
  rcases List.eq_nil_or_concat records with rfl | ⟨front, last, rfl⟩
  · exact known
  · rw [List.concat_eq_append] at chained ⊢
    obtain ⟨_, _, valid⟩ := chained.mem (List.mem_append_right front (List.mem_singleton_self last))
    rw [HashChain.endMark_concat]
    exact Or.inr ⟨_, digest_of_valid valid⟩

/-- Chained records are linked by their digests. -/
theorem Chained.linked {line : ℕ} {previous : Json} {records : List Json}
    (known : NoneOrText previous) (chained : Chained host task line previous records) :
    HashChain.Linked (·.get "record_sha256") (·.get "previous_sha256") previous records := by
  induction records generalizing line previous with
  | nil => trivial
  | cons record records ih =>
      obtain ⟨valid, rest⟩ := chained
      obtain ⟨_, _, body⟩ := validateRecord_eq_ok.mp valid
      have link := (equal_of_noneOrText known).mp (validateBody_facts body).1
      rw [bodyOf, Json.get_erase _ (by simp)] at link
      exact ⟨link, ih (Or.inr ⟨_, digest_of_valid valid⟩) rest⟩

/-- A record as it is read from a line: its fields are in order. -/
def Read (record : Json) : Prop := ∀ fields, record = .obj fields → Fields.Ordered fields

/-- Where digests tell bodies apart, they tell records apart. -/
theorem injOn_digest {records : Set Json} (apart : Set.InjOn host.digest (bodyOf '' records))
    (read : ∀ record ∈ records, Read record)
    (valid : ∀ record ∈ records, ∃ line previous,
      validateRecord host task line previous record = .ok ()) :
    Set.InjOn (·.get "record_sha256") records := by
  intro first firstIn second secondIn same
  obtain ⟨_, _, validFirst⟩ := valid first firstIn
  obtain ⟨_, _, validSecond⟩ := valid second secondIn
  have bodies : bodyOf first = bodyOf second := by
    refine apart (Set.mem_image_of_mem _ firstIn) (Set.mem_image_of_mem _ secondIn) ?_
    simpa [digest_of_valid validFirst, digest_of_valid validSecond] using same
  obtain ⟨fields, is⟩ := Option.isSome_iff_exists.mp (validateRecord_eq_ok.mp validFirst).1
  obtain ⟨fields', is'⟩ := Option.isSome_iff_exists.mp (validateRecord_eq_ok.mp validSecond).1
  rw [Json.obj?_eq_some] at is is'
  subst is is'
  congr 1
  refine Json.eq_of_erase_eq (read _ firstIn _ rfl) (read _ secondIn _ rfl) bodies ?_
  have present {record : Json} {line : ℕ} {previous : Json}
      (valid : validateRecord host task line previous record = .ok ()) :
      record.get? "record_sha256" = some (record.get "record_sha256") :=
    Json.get?_of_get_ne_null (by rw [digest_of_valid valid]; simp)
  rw [present validFirst, present validSecond]
  exact congrArg some same

/-! ## The loops -/

/-- The records that lines hold. -/
def Reads (host : Host) : List Bytes → List Json → Prop :=
  List.Forall₂ fun raw record => loadsBytes host.floats raw = some record

theorem Reads.read {lines : List Bytes} {records : List Json} (reads : Reads host lines records) :
    ∀ record ∈ records, Read record := by
  induction reads with
  | nil => simp
  | cons loaded _ ih =>
      refine List.forall_mem_cons.mpr ⟨?_, ih⟩
      rintro fields rfl
      exact ordered_of_loadsBytes loaded

theorem reads_iff_map {lines : List Bytes} {records : List Json} :
    Reads host lines records ↔ lines.map (loadsBytes host.floats) = records.map some := by
  rw [Reads, ← List.forall₂_eq_eq_eq, List.forall₂_map_left_iff, List.forall₂_map_right_iff]

/-- Lines hold one list of records. -/
theorem Reads.unique {lines : List Bytes} {records others : List Json}
    (reads : Reads host lines records) (reads' : Reads host lines others) : records = others := by
  rw [reads_iff_map] at reads reads'
  exact List.map_injective_iff.mpr (Option.some_injective _) (reads.symm.trans reads')

/-- `_recover_stale_anchor` reads chained records. -/
theorem chainLines_eq_ok {line : ℕ} {previous : Json} {lines : List Bytes} {records : List Json} :
    chainLines host task line previous lines = .ok records ↔
      Reads host lines records ∧ Chained host task line previous records := by
  induction lines generalizing line previous records with
  | nil =>
      rw [chainLines, Reads, List.forall₂_nil_left_iff, Except.ok.injEq]
      constructor
      · rintro rfl
        exact ⟨rfl, trivial⟩
      · exact fun nothing => nothing.1.symm
  | cons raw lines ih =>
      rw [chainLines]
      simp only [bind_eq_ok, ih, pure, Except.pure, Except.ok.injEq]
      constructor
      · rintro ⟨record, loaded, _, valid, records, ⟨reads, chained⟩, rfl⟩
        rw [chainLine] at loaded
        split at loaded
        · next is =>
            cases loaded
            exact ⟨.cons is reads, valid, chained⟩
        · cases loaded
      · rintro ⟨reads, chained⟩
        cases reads with
        | cons loaded reads =>
            exact ⟨_, by rw [chainLine, loaded], (), chained.1, _, ⟨reads, chained.2⟩, rfl⟩

theorem identify_of_valid {line : ℕ} {previous record : Json}
    (valid : validateRecord host task line previous record = .ok ()) :
    identify record = .ok (record.get "id") := by
  obtain ⟨id, is, _⟩ := id_of_valid valid
  obtain ⟨fields, object⟩ := Option.isSome_iff_exists.mp (validateRecord_eq_ok.mp valid).1
  rw [Json.obj?_eq_some] at object
  subst object
  rw [identify.eq_def]
  simp only [is]

/-- A line with a record is not blank. -/
theorem not_blank {raw : Bytes} {record : Json} (loaded : loadsBytes host.floats raw = some record) :
    ¬ raw.all isByteSpace = true := by
  intro blank
  rw [loadsBytes_space] at loaded
  · cases loaded
  · intro byte member
    have space := List.all_eq_true.mp blank byte member
    simp only [isByteSpace, Bool.or_eq_true, decide_eq_true_eq, Bool.and_eq_true,
      UInt8.le_iff_toNat_le] at space
    rcases space with rfl | space
    · decide
    · have low : 9 ≤ byte.toNat := space.1
      have high : byte.toNat ≤ 13 := space.2
      omega

/-- `load_evidence` reads chained records with identifiers of their own. -/
theorem loadLines_eq_ok {line : ℕ} {previous : Json} {ids : List Json} {lines : List Bytes}
    {records : List Json} :
    loadLines host task true line previous ids lines = .ok records ↔
      Reads host lines records ∧ Chained host task line previous records ∧
        (records.map (·.get "id")).Nodup ∧ ∀ record ∈ records, record.get "id" ∉ ids := by
  induction lines generalizing line previous ids records with
  | nil =>
      rw [loadLines, Reads, List.forall₂_nil_left_iff, Except.ok.injEq]
      constructor
      · rintro rfl
        simp [Chained]
      · exact fun nothing => nothing.1.symm
  | cons raw lines ih =>
      have absent {record : Json} {line : ℕ} {previous : Json}
          (valid : validateRecord host task line previous record = .ok ()) :
          ¬ inList (record.get "id") ids = true ↔ record.get "id" ∉ ids := by
        obtain ⟨id, is, _⟩ := id_of_valid valid
        simp [inList, is]
      rw [loadLines]
      simp only [bind_eq_ok, exists_const, ih, pure, Except.pure, Except.ok.injEq, require_eq_ok,
        if_true]
      constructor
      · rintro ⟨_, record, loaded, _, valid, id, identified, fresh, records,
          ⟨reads, chained, distinct, others⟩, rfl⟩
        rw [readLine] at loaded
        rw [identify_of_valid valid] at identified
        cases identified
        split at loaded
        · next is =>
            cases loaded
            refine ⟨.cons is reads, ⟨valid, chained⟩, ?_, ?_⟩
            · rw [List.map_cons, List.nodup_cons]
              refine ⟨?_, distinct⟩
              intro member
              obtain ⟨other, inside, same⟩ := List.mem_map.mp member
              exact others other inside (same ▸ List.mem_cons_self)
            · refine List.forall_mem_cons.mpr ⟨(absent valid).mp fresh, ?_⟩
              intro other inside
              exact fun member => others other inside (List.mem_cons_of_mem _ member)
        · cases loaded
      · rintro ⟨reads, chained, distinct, fresh⟩
        cases reads with
        | @cons _ record _ records loaded reads =>
            rw [List.map_cons, List.nodup_cons] at distinct
            obtain ⟨here, later⟩ := List.forall_mem_cons.mp fresh
            refine ⟨not_blank loaded, record, by rw [readLine, loaded], (), chained.1, _,
              identify_of_valid chained.1, (absent chained.1).mpr here, records,
              ⟨reads, chained.2, distinct.2, ?_⟩, rfl⟩
            intro other inside member
            rcases List.mem_cons.mp member with same | member
            · exact distinct.1 (List.mem_map.mpr ⟨other, inside, same⟩)
            · exact later other inside member

/-- The records of a ledger, whatever its anchor says. -/
def Holds (host : Host) (task : Text) (raw : Bytes) (records : List Json) : Prop :=
  WholeLines raw ∧ Reads host (splitlines raw) records ∧ Chained host task 1 .null records

theorem loadEvidence_some {raw : Bytes} {anchor state : Option Bytes} {records : List Json} :
    loadEvidence host task ⟨some raw, anchor, state⟩ true = .ok records ↔
      Holds host task raw records ∧ (records.map (·.get "id")).Nodup ∧
        checkAnchor host task anchor records = .ok () := by
  rw [loadEvidence]
  simp only [bind_eq_ok, require_eq_ok, exists_const, loadLines_eq_ok, pure, Except.pure,
    Except.ok.injEq, if_true, List.not_mem_nil, not_false_eq_true, implies_true, and_true]
  constructor
  · rintro ⟨whole, _, ⟨reads, chained, distinct⟩, _, checked, rfl⟩
    exact ⟨⟨whole, reads, chained⟩, distinct, checked⟩
  · rintro ⟨⟨whole, reads, chained⟩, distinct, checked⟩
    exact ⟨whole, records, ⟨reads, chained, distinct⟩, (), checked, rfl⟩

theorem loadEvidence_none {anchor state : Option Bytes} {records : List Json} :
    loadEvidence host task ⟨none, anchor, state⟩ true = .ok records ↔
      records = [] ∧ ∃ loaded, loadAnchor host task anchor = .ok loaded ∧
        loaded.all (fun anchor => !(anchor.get "count").truthy) = true := by
  rw [loadEvidence]
  simp only [bind_eq_ok, require_eq_ok, exists_const, pure, Except.pure, Except.ok.injEq]
  constructor
  · rintro ⟨loaded, is, empty, rfl⟩
    exact ⟨rfl, loaded, is, empty⟩
  · rintro ⟨rfl, loaded, is, empty⟩
    exact ⟨loaded, is, empty, rfl⟩

/-- An anchor of records names their number and their head. -/
theorem checkAnchor_eq_ok {anchor : Option Bytes} {loaded : Option Json} {records : List Json}
    (is : loadAnchor host task anchor = .ok loaded) :
    checkAnchor host task anchor records = .ok () ↔ loaded.all (fun anchor =>
      (anchor.get "count").equal (.int records.length) &&
        (anchor.get "head_sha256").equal (headOf records)) = true := by
  rw [checkAnchor, is]
  simp only [bind_eq_ok, require_eq_ok, Except.ok.injEq, exists_eq_left']

/-- Records with one head are the same. -/
theorem eq_of_headOf_eq {first second : List Json} (read : ∀ record ∈ first, Read record)
    (read' : ∀ record ∈ second, Read record) (chained : Chained host task 1 .null first)
    (chained' : Chained host task 1 .null second)
    (apart : Set.InjOn host.digest (bodyOf '' {record | record ∈ first ∨ record ∈ second}))
    (same : headOf first = headOf second) : first = second := by
  have valid : ∀ record ∈ {record | record ∈ first ∨ record ∈ second}, ∃ line previous,
      validateRecord host task line previous record = .ok () := by
    rintro record (member | member)
    · exact chained.mem member
    · exact chained'.mem member
  refine (chained.linked (Or.inl rfl)).unique (chained'.linked (Or.inl rfl))
    (injOn_digest apart ?_ valid) ?_ same
  · rintro record (member | member)
    · exact read record member
    · exact read' record member
  · intro record member
    obtain ⟨_, _, valid⟩ := valid record member
    rw [digest_of_valid valid]
    simp

/-! ## Anchors -/

theorem loadAnchor_some {bytes : Bytes} {anchor : Json} :
    loadAnchor host task (some bytes) = .ok (some anchor) ↔
      readJson host.floats bytes = some anchor ∧ anchor.obj?.isSome ∧
        (anchor.get "schema").equal (.int 1) = true ∧ anchor.get "task_id" = .str task ∧
        anchor.get "anchor_sha256" = .str (anchorDigest host anchor) := by
  rw [loadAnchor]
  split
  · next missing => simp [missing]
  · next read is =>
      simp only [bind_eq_ok, require_eq_ok, exists_const, Json.equal_str, pure, Except.pure,
        Except.ok.injEq, Option.some.injEq, is]
      constructor
      · rintro ⟨checks, rfl⟩
        exact ⟨rfl, checks⟩
      · rintro ⟨rfl, checks⟩
        exact ⟨checks, rfl⟩

theorem loadAnchor_some_ne_none {bytes : Bytes} :
    loadAnchor host task (some bytes) ≠ .ok none := by
  intro loaded
  rw [loadAnchor] at loaded
  split at loaded
  · cases loaded
  · obtain ⟨_, _, loaded⟩ := bind_eq_ok.mp loaded
    cases loaded

theorem index_natCast (items : List Json) (position : ℕ) :
    index items position = match items[position]? with
      | some item => .ok item
      | none => .error ⟨.keyError, "list index out of range"⟩ := by
  have inside : ¬ (position : ℤ) < 0 := not_lt_of_ge (Int.natCast_nonneg position)
  cases there : items[position]? with
  | none => simp only [index, if_neg inside, Int.toNat_natCast, there]
  | some item => simp only [index, if_neg inside, Int.toNat_natCast, there]

theorem index_last {items : List Json} {last : Json} :
    index items (-1) = .ok last ↔ items.getLast? = some last := by
  rcases List.eq_nil_or_concat items with rfl | ⟨front, item, rfl⟩
  · simp [index]
  · have place : (-1 : ℤ) + (front.concat item).length = front.length := by simp
    have back : ¬ ((front.length : ℤ) < 0) := by omega
    rw [index]
    simp only [Int.reduceNeg, Int.reduceLT, if_true, place, if_neg back, Int.toNat_natCast]
    simp [List.concat_eq_append]

/-- The head among the first records. -/
theorem anchoredHead_natCast {records : List Json} {count : ℕ} (bound : count ≤ records.length) :
    anchoredHead records count = .ok (headOf (records.take count)) := by
  rcases count with _ | count
  · rfl
  · have nonzero : ((count + 1 : ℕ) : ℤ) ≠ 0 := by omega
    have position : ((count + 1 : ℕ) : ℤ) - 1 = (count : ℕ) := by omega
    have there : records[count]? = some (records[count]) := List.getElem?_eq_getElem bound
    rw [anchoredHead, if_neg nonzero, position, index_natCast, there]
    simp only [bind, Except.bind, pure, Except.pure, headOf]
    rw [List.take_add_one, there, Option.toList_some, HashChain.endMark_concat]

/-- What `_recover_stale_anchor` checked before it returned. -/
theorem recoverStaleAnchor_eq_ok {anchor : Json} {raw : Bytes} {repaired : Option Json}
    (recovered : recoverStaleAnchor host task anchor raw = .ok repaired) :
    ∃ records count, Holds host task raw records ∧
      host.int (anchor.getD "count" (.int 0)) = .ok count ∧ count ≤ records.length ∧
      (∃ head, anchoredHead records count = .ok head ∧
        head.equal (anchor.get "head_sha256") = true) ∧
      (repaired = none ∧ count = records.length ∨ count ≠ records.length ∧
        ∃ last, records.getLast? = some last ∧
          repaired = some (repairedAnchor host task records last count)) := by
  rw [recoverStaleAnchor] at recovered
  simp only [bind_eq_ok, require_eq_ok, exists_const, chainLines_eq_ok] at recovered
  obtain ⟨whole, records, ⟨reads, chained⟩, count, counted, bound, head, anchored, same, rest⟩ :=
    recovered
  refine ⟨records, count, ⟨whole, reads, chained⟩, counted, bound, ⟨head, anchored, same⟩, ?_⟩
  split at rest
  · next all =>
      cases rest
      exact Or.inl ⟨rfl, all⟩
  · next filled =>
      obtain ⟨last, is, rest⟩ := bind_eq_ok.mp rest
      cases rest
      exact Or.inr ⟨filled, last, index_last.mp is, rfl⟩

/-- A count that `==` a number is one. -/
theorem int_of_count {anchor : Json} {number : ℤ}
    (counted : (anchor.get "count").equal (.int number) = true) :
    host.int (anchor.getD "count" (.int 0)) = .ok number := by
  have found : anchor.get "count" ≠ .null := by
    intro null
    rw [null] at counted
    simp [Json.equal, Json.number?] at counted
  rw [Json.getD, Json.get?_of_get_ne_null found, Option.getD_some]
  exact Host.int_of_equal counted

/-- The count of an anchor that a load accepted. -/
theorem count_of_load {files : TaskFiles} {records : List Json} {anchor : Json} {count : ℤ}
    (loaded : loadEvidence host task files true = .ok records)
    (is : loadAnchor host task files.anchor = .ok (some anchor))
    (counted : host.int (anchor.getD "count" (.int 0)) = .ok count) : count = records.length := by
  obtain ⟨_ | raw, bytes, state⟩ := files
  · obtain ⟨rfl, found, is', empty⟩ := loadEvidence_none.mp loaded
    rw [is] at is'
    cases is'
    rw [Option.all_some, Bool.not_eq_true', Json.get, Json.getD] at empty
    rw [Json.getD] at counted
    cases value : anchor.get? "count" with
    | none =>
        rw [value] at counted
        cases counted
        rfl
    | some value' =>
        rw [value] at counted empty
        simp only [Option.getD_some] at counted empty
        cases value' with
        | bool flag => cases flag <;> simp_all [Json.truthy, Host.int]
        | int number =>
            simp only [Json.truthy, ne_eq, decide_not, Bool.not_eq_false', decide_eq_true_eq] at empty
            cases counted
            simpa using empty
        | float bits =>
            simp only [Json.truthy, ne_eq, decide_not, Bool.not_eq_false', decide_eq_true_eq] at empty
            simp only [Host.int, empty, Except.ok.injEq] at counted
            simpa using counted.symm
        | str string =>
            simp only [Json.truthy, ne_eq, decide_not, Bool.not_eq_false', decide_eq_true_eq] at empty
            subst empty
            simp [Host.int, Host.intOfText, strip] at counted
        | _ => simp [Host.int] at counted
  · obtain ⟨_, _, checked⟩ := loadEvidence_some.mp loaded
    rw [checkAnchor_eq_ok is, Option.all_some, Bool.and_eq_true] at checked
    rw [int_of_count checked.1] at counted
    exact (Except.ok.inj counted).symm

/-! ## Anchors that were written -/

section

variable {pairs : List (Text × Json)}

/-- An anchor is accepted exactly if its digest and the task's name survive a round
trip. -/
theorem loadAnchor_sealed (proper : Unsealed "anchor_sha256" pairs)
    (schema : (Json.obj (Fields.ofPairs pairs)).get? "schema" = some (.int 1))
    (named : (Json.obj (Fields.ofPairs pairs)).get? "task_id" = some (.str task)) {anchor : Json} :
    loadAnchor host task (some (anchorText host (sealAnchor host pairs))) = .ok (some anchor) ↔
      anchor = (sealAnchor host pairs).normalize ∧ mergeSurrogates task = task ∧
        host.digest (Json.obj (Fields.ofPairs pairs)).normalize =
          host.digest (.obj (Fields.ofPairs pairs)) := by
  have found (key : Text) := @Unsealed.get?_normalize host _ pairs proper key
  have version : (sealAnchor host pairs).normalize.get "schema" = .int 1 := by
    rw [sealAnchor, Json.get, Json.getD, found, if_neg (by simp), schema]
    rfl
  have name : (sealAnchor host pairs).normalize.get "task_id" = .str (mergeSurrogates task) := by
    rw [sealAnchor, Json.get, Json.getD, found, if_neg (by simp), named]
    rfl
  have digest : (sealAnchor host pairs).normalize.get "anchor_sha256" =
      .str (host.digest (.obj (Fields.ofPairs pairs))) := by
    rw [sealAnchor, Json.get, Json.getD, found, if_pos rfl]
    rfl
  have body : anchorDigest host (sealAnchor host pairs).normalize =
      host.digest (Json.obj (Fields.ofPairs pairs)).normalize := by
    rw [anchorDigest, sealAnchor, proper.erase_normalize]
  rw [loadAnchor_some, anchorText, readJson_jsonLine]
  constructor
  · rintro ⟨read, _, _, task_, sha⟩
    obtain rfl := Option.some.inj read
    rw [name, Json.str.injEq] at task_
    rw [digest, body, Json.str.injEq] at sha
    exact ⟨rfl, task_, sha.symm⟩
  · rintro ⟨rfl, task_, sha⟩
    refine ⟨rfl, rfl, ?_, ?_, ?_⟩
    · rw [version]
      rfl
    · rw [name, task_]
    · rw [digest, body, sha]

end

/-! ## Binding -/

/-- The head that an anchor names, if its ledger is there, is that of the records. -/
theorem headOf_load {raw : Bytes} {anchorFile state : Option Bytes} {records : List Json}
    {anchor : Json} (loaded : loadEvidence host task ⟨some raw, anchorFile, state⟩ true = .ok records)
    (is : loadAnchor host task anchorFile = .ok (some anchor)) :
    anchor.get "head_sha256" = headOf records := by
  obtain ⟨⟨_, _, chained⟩, _, checked⟩ := loadEvidence_some.mp loaded
  rw [checkAnchor_eq_ok is, Option.all_some, Bool.and_eq_true] at checked
  exact (equal_of_noneOrText (noneOrText_headOf (Or.inl rfl) chained)).mp checked.2

theorem headOf_eq_null {line : ℕ} {records : List Json}
    (chained : Chained host task line .null records) : headOf records = .null ↔ records = [] := by
  rcases List.eq_nil_or_concat records with rfl | ⟨front, last, rfl⟩
  · simp [headOf]
  · rw [List.concat_eq_append] at chained ⊢
    obtain ⟨_, _, valid⟩ := chained.mem (List.mem_append_right front (List.mem_singleton_self last))
    rw [headOf, HashChain.endMark_concat, digest_of_valid valid]
    simp

/-- Two ledgers of one task that load against anchors with one head hold the same
records, unless one of them has lost its ledger file. -/
theorem records_eq_iff {first second : TaskFiles} {records records' : List Json}
    {anchor anchor' : Json} (loaded : loadEvidence host task first true = .ok records)
    (loaded' : loadEvidence host task second true = .ok records')
    (is : loadAnchor host task first.anchor = .ok (some anchor))
    (is' : loadAnchor host task second.anchor = .ok (some anchor'))
    (same : anchor.get "head_sha256" = anchor'.get "head_sha256")
    (apart : Set.InjOn host.digest
      (bodyOf '' {record | record ∈ records ∨ record ∈ records'})) :
    records = records' ↔
      first.ledger.isSome = second.ledger.isSome ∨ anchor.get "head_sha256" = .null := by
  obtain ⟨_ | raw, anchorFile, state⟩ := first
  · obtain ⟨rfl, -⟩ := loadEvidence_none.mp loaded
    obtain ⟨_ | raw', anchorFile', state'⟩ := second
    · obtain ⟨rfl, -⟩ := loadEvidence_none.mp loaded'
      simp
    · obtain ⟨⟨_, _, chained'⟩, -⟩ := loadEvidence_some.mp loaded'
      rw [same, headOf_load loaded' is', headOf_eq_null chained']
      simp [eq_comm]
  · obtain ⟨⟨_, reads, chained⟩, -⟩ := loadEvidence_some.mp loaded
    obtain ⟨_ | raw', anchorFile', state'⟩ := second
    · obtain ⟨rfl, -⟩ := loadEvidence_none.mp loaded'
      rw [headOf_load loaded is, headOf_eq_null chained]
      simp
    · obtain ⟨⟨_, reads', chained'⟩, -⟩ := loadEvidence_some.mp loaded'
      rw [headOf_load loaded is, headOf_load loaded' is'] at same
      have equal := eq_of_headOf_eq reads.read reads'.read chained chained' apart same
      simp [equal]

theorem Holds.take {raw : Bytes} {records : List Json} (holds : Holds host task raw records)
    (count : ℕ) : Chained host task 1 .null (records.take count) := by
  have whole := holds.2.2
  rw [← List.take_append_drop count records, chained_append] at whole
  exact whole.1

/-- A repaired anchor starts behind the records that the old one was written for. -/
theorem take_of_recover {files : TaskFiles} {anchored : List Json} {anchor : Json} {raw : Bytes}
    {repaired : Option Json} (loaded : loadEvidence host task files true = .ok anchored)
    (is : loadAnchor host task files.anchor = .ok (some anchor))
    (recovered : recoverStaleAnchor host task anchor raw = .ok repaired) :
    ∃ records, Holds host task raw records ∧ anchored.length ≤ records.length ∧
      host.int (anchor.getD "count" (.int 0)) = .ok (anchored.length : ℤ) ∧
      (Set.InjOn host.digest (bodyOf '' {record | record ∈ anchored ∨ record ∈ records}) →
        records.take anchored.length = anchored) ∧
      ∀ anchor, repaired = some anchor → ∃ last, records.getLast? = some last ∧
        anchor = repairedAnchor host task records last anchored.length := by
  obtain ⟨records, count, holds, counted, bound, ⟨head, found, same⟩, result⟩ :=
    recoverStaleAnchor_eq_ok recovered
  obtain rfl := count_of_load loaded is counted
  have bound : anchored.length ≤ records.length := by exact_mod_cast bound
  refine ⟨records, holds, bound, counted, ?_, ?_⟩
  · intro apart
    rw [anchoredHead_natCast bound] at found
    cases found
    have chained := holds.take anchored.length
    have known := noneOrText_headOf (Or.inl rfl) chained
    have heads : anchor.get "head_sha256" = headOf (records.take anchored.length) := by
      rcases known with null | ⟨string, is⟩
      · rw [headOf, null] at same ⊢
        exact Json.null_equal.mp same
      · rw [headOf, is] at same ⊢
        exact Json.str_equal.mp same
    obtain ⟨_ | ledger, anchorFile, state⟩ := files
    · obtain ⟨rfl, -⟩ := loadEvidence_none.mp loaded
      rfl
    · obtain ⟨⟨_, reads, chainedBefore⟩, -⟩ := loadEvidence_some.mp loaded
      refine eq_of_headOf_eq (fun record member => holds.2.1.read record (List.mem_of_mem_take member))
        reads.read chained chainedBefore (apart.mono (Set.image_mono ?_)) ?_
      · rintro record (member | member)
        · exact Or.inr (List.mem_of_mem_take member)
        · exact Or.inl member
      · rw [← heads, headOf_load loaded is]
  · rintro anchor rfl
    rcases result with ⟨missing, -⟩ | ⟨-, last, is, repaired⟩
    · cases missing
    · exact ⟨last, is, Option.some.inj repaired⟩

/-- The fields of a repaired anchor. -/
def repairedFields (task : Text) (records : List Json) (last : Json) (count : ℤ) :
    List (Text × Json) :=
  [("schema", .int 1), ("task_id", .str task), ("count", .int records.length),
    ("head_sha256", last.get "record_sha256"), ("task_revision", revisionOf last),
    ("recovered_append_count", .int (records.length - count))]

theorem repairedFields_proper (records : List Json) (last : Json) (count : ℤ) :
    Unsealed "anchor_sha256" (repairedFields task records last count) := by
  simp [Unsealed, repairedFields]

theorem plain_repairedFields {records : List Json} {last : Json} {count : ℤ} {line : ℕ}
    {previous : Json} (valid : validateRecord host task line previous last = .ok ()) :
    (Json.obj (Fields.ofPairs (repairedFields task records last count))).Plain ↔
      mergeSurrogates task = task ∧ (revisionOf last).Plain := by
  constructor
  · intro plain
    refine ⟨Json.plain_str.mp (@Json.Plain.get? _ _ plain "task_id" ?_),
      @Json.Plain.get? _ _ plain "task_revision" ?_⟩
    all_goals
      simp [repairedFields, Json.get?, Json.obj?, Fields.ofPairs, Fields.get?_set]
  · rintro ⟨named, revised⟩
    refine Json.plain_ofPairs ?_
    have head : (last.get "record_sha256").Plain := by
      rw [digest_of_valid valid]
      exact Host.plain_digest _
    simp [repairedFields, named, revised, head]

/-- A repaired anchor is accepted exactly if what it says of the task is read back as it
was. -/
theorem loadEvidence_repaired_iff {raw : Bytes} {records : List Json} {last : Json} {count : ℤ}
    {state : Option Bytes} (holds : Holds host task raw records)
    (distinct : (records.map (·.get "id")).Nodup) (is : records.getLast? = some last)
    (apart : Set.InjOn host.digest {
      Json.obj (Fields.ofPairs (repairedFields task records last count)),
      (Json.obj (Fields.ofPairs (repairedFields task records last count))).normalize}) :
    loadEvidence host task
        ⟨some raw, some (anchorText host (repairedAnchor host task records last count)), state⟩
        true = .ok records ↔
      mergeSurrogates task = task ∧ (revisionOf last).Plain := by
  obtain ⟨line, previous, valid⟩ := holds.2.2.mem (List.mem_of_getLast? is)
  have proper : Unsealed "anchor_sha256" (repairedFields task records last count) :=
    repairedFields_proper records last count
  have readsBack : (Json.obj (Fields.ofPairs (repairedFields task records last count))).Plain ↔
      mergeSurrogates task = task ∧ (revisionOf last).Plain := plain_repairedFields valid
  have accepted (anchor : Json) := @loadAnchor_sealed host task
    (repairedFields task records last count) proper rfl rfl anchor
  rw [loadEvidence_some]
  constructor
  · rintro ⟨_, _, checked⟩
    rw [checkAnchor] at checked
    obtain ⟨loaded, is, _⟩ := bind_eq_ok.mp checked
    cases loaded with
    | none => exact absurd is loadAnchor_some_ne_none
    | some anchor =>
        obtain ⟨_, _, digest⟩ := (accepted anchor).mp is
        exact readsBack.mp (apart (by simp) (by simp) digest)
  · intro stable
    have plain : (Json.obj (Fields.ofPairs (repairedFields task records last count))).normalize =
        .obj (Fields.ofPairs (repairedFields task records last count)) := readsBack.mpr stable
    have same : (repairedAnchor host task records last count).normalize =
        repairedAnchor host task records last count := proper.plain.mpr plain
    have loaded := (accepted _).mpr ⟨rfl, stable.1, by rw [plain]⟩
    have head : headOf records = last.get "record_sha256" := by
      rw [headOf, HashChain.endMark, is, Option.map_some, Option.getD_some]
    refine ⟨holds, distinct, (checkAnchor_eq_ok loaded).mpr ?_⟩
    have counted : (repairedAnchor host task records last count).get "count" =
        .int records.length := get_sealed (by simp)
    have headed : (repairedAnchor host task records last count).get "head_sha256" =
        last.get "record_sha256" := get_sealed (by simp)
    rw [Option.all_some, Bool.and_eq_true]
    change ((repairedAnchor host task records last count).normalize.get "count").equal _ = true ∧
      ((repairedAnchor host task records last count).normalize.get "head_sha256").equal _ = true
    rw [same, head, counted, headed, digest_of_valid valid]
    exact ⟨Json.int_equal_int.mpr rfl, Json.equal_str.mpr rfl⟩

/-- What an anchor binds.  Two ledgers of a task that load against anchors with one head
hold the same records exactly if both have their ledger file or neither has, or the head
is that of no records.  Whenever `_recover_stale_anchor` accepts a ledger, its first
records are those the anchor was written for, and the anchor it writes makes the whole
ledger load exactly if the task's name and revision are read back as they were. -/
theorem evidence_bound (host : Host) (task : Text) :
    (∀ (first second : TaskFiles) (records records' : List Json) (anchor anchor' : Json),
      loadEvidence host task first true = .ok records →
      loadEvidence host task second true = .ok records' →
      loadAnchor host task first.anchor = .ok (some anchor) →
      loadAnchor host task second.anchor = .ok (some anchor') →
      anchor.get "head_sha256" = anchor'.get "head_sha256" →
      Set.InjOn host.digest (bodyOf '' {record | record ∈ records ∨ record ∈ records'}) →
      (records = records' ↔
        first.ledger.isSome = second.ledger.isSome ∨ anchor.get "head_sha256" = .null)) ∧
    (∀ (files : TaskFiles) (anchored : List Json) (anchor : Json) (raw : Bytes)
        (repaired : Option Json),
      loadEvidence host task files true = .ok anchored →
      loadAnchor host task files.anchor = .ok (some anchor) →
      recoverStaleAnchor host task anchor raw = .ok repaired →
      ∃ records, Holds host task raw records ∧
        host.int (anchor.getD "count" (.int 0)) = .ok (anchored.length : ℤ) ∧
        (Set.InjOn host.digest (bodyOf '' {record | record ∈ anchored ∨ record ∈ records}) →
          records.take anchored.length = anchored) ∧
        ∀ written ∈ repaired, ∃ last ∈ records.getLast?,
          (records.map (·.get "id")).Nodup →
          Set.InjOn host.digest {written.erase "anchor_sha256",
            (written.erase "anchor_sha256").normalize} →
          ∀ state, (loadEvidence host task ⟨some raw, some (anchorText host written), state⟩
              true = .ok records ↔
            mergeSurrogates task = task ∧ (revisionOf last).Plain)) := by
  refine ⟨fun first second records records' anchor anchor' loaded loaded' is is' same apart =>
    records_eq_iff loaded loaded' is is' same apart, ?_⟩
  intro files anchored anchor raw repaired loaded is recovered
  obtain ⟨records, holds, bound, counted, prior, writes⟩ := take_of_recover loaded is recovered
  refine ⟨records, holds, counted, prior, ?_⟩
  intro written member
  obtain ⟨last, lastIs, rfl⟩ := writes written member
  refine ⟨last, lastIs, ?_⟩
  intro distinct apart state
  have body : (repairedAnchor host task records last anchored.length).erase "anchor_sha256" =
      .obj (Fields.ofPairs (repairedFields task records last anchored.length)) :=
    (repairedFields_proper records last anchored.length).erase
  rw [body] at apart
  exact loadEvidence_repaired_iff holds distinct lastIs apart

/-! ## Two observations -/

/-- The body of an observation. -/
def observation (id : Text) (sequence : ℕ) (previous : Json) : List (Text × Json) :=
  [("schema", .int 2), ("id", .str id), ("sequence", .int sequence),
    ("task_id", .str "T-1"), ("at", .str "2026-01-01T00:00:00+00:00"),
    ("kind", .str "observation"), ("summary", .str "seen"), ("provenance", .str "manual"),
    ("change_epoch", .int 0), ("details", .obj []), ("previous_sha256", previous)]

/-- The digest of the first observation. -/
def firstDigest : ℕ := 0x23e09d4b90a75ed3f49318291713b0e3081a711dceaf5156176da4c6ee4cae73

/-- The digest of the second observation. -/
def secondDigest : ℕ := 0x35f68dc899630a47e1f08872e43acf2b7f0f2f7fb2e94df54a837843e2294ff2

/-- The body of an anchor of the first observation, with a count of its own. -/
def anchorOfFirst (count : ℤ) : List (Text × Json) :=
  [("schema", .int 1), ("task_id", .str "T-1"), ("count", .int count),
    ("head_sha256", .str (hexText firstDigest)), ("task_revision", .null)]

/-- The body of the anchor that is repaired behind the second observation. -/
def anchorOfBoth : List (Text × Json) :=
  [("schema", .int 1), ("task_id", .str "T-1"), ("count", .int 2),
    ("head_sha256", .str (hexText secondDigest)), ("task_revision", .null),
    ("recovered_append_count", .int 1)]

/-- A host that knows the digests of the observations and of their anchors. -/
def observer : Host :=
  tableHost [(221379856, firstDigest), (339862774, secondDigest),
    (617667733, 0x34ed39510c278fa626d5e37f23a254b7857fec0fb725b0a0a3b34af740da25a3),
    (427478715, 0xd46b82ccb2dce87c1c8004e3b45d144ee03ca2d2ee64b6ce8b0d47273a6e8376),
    (334089790, 0x75293f9bfda280dd64bca3c80c23724a412491d5732d85205a0e8aa6d40de2ca),
    (838482186, 0xf55071d44f46417781ac18338a1b63692e985d9bc211ce65eab8b6da9ab3b03e),
    (828566067, 0x805846fa7181236ab83f27b897e8b0d0fb1848ce7e4a10b9a569afb51bd7483a),
    (610709779, 0x83f8e0de3c0fcf1a14b9a90e1378df6ede09ffa737916b8897083c5a569bcefb)]

/-- The first observation. -/
def firstRecord : Json := sealRecord observer (observation "E-1" 1 .null)

/-- The second observation. -/
def secondRecord : Json := sealRecord observer (observation "E-2" 2 (.str (hexText firstDigest)))

/-- The ledger of the first observation, with its anchor. -/
def oneRecord : TaskFiles :=
  ⟨some (recordLine observer firstRecord),
    some (anchorText observer (sealAnchor observer (anchorOfFirst 1))), none⟩

/-- No ledger, with an anchor of no records that names the first observation. -/
def lostLedger : TaskFiles :=
  ⟨none, some (anchorText observer (sealAnchor observer (anchorOfFirst 0))), none⟩

theorem load_oneRecord : loadEvidence observer "T-1" oneRecord true = .ok [firstRecord] := by
  decide +kernel

theorem load_lostLedger : loadEvidence observer "T-1" lostLedger true = .ok [] := by
  decide +kernel

example : oneRecord.anchor ≠ lostLedger.anchor := by
  decide +kernel

theorem anchor_oneRecord : loadAnchor observer "T-1" oneRecord.anchor =
    .ok (some (sealAnchor observer (anchorOfFirst 1))) := by
  decide +kernel

theorem anchor_lostLedger : loadAnchor observer "T-1" lostLedger.anchor =
    .ok (some (sealAnchor observer (anchorOfFirst 0))) := by
  decide +kernel

theorem injOn_firstRecord {records : Set Json} (only : ∀ record ∈ records, record = firstRecord) :
    Set.InjOn observer.digest (bodyOf '' records) := by
  rintro _ ⟨record, member, rfl⟩ _ ⟨other, member', rfl⟩ _
  rw [only record member, only other member']

/-- A ledger can be lost without a trace: an anchor that says so names any head. -/
theorem lostLedger_not_bound :
    ¬ ∀ (host : Host) (task : Text) (first second : TaskFiles) (records records' : List Json)
      (anchor anchor' : Json),
      loadEvidence host task first true = .ok records →
      loadEvidence host task second true = .ok records' →
      loadAnchor host task first.anchor = .ok (some anchor) →
      loadAnchor host task second.anchor = .ok (some anchor') →
      anchor.get "head_sha256" = anchor'.get "head_sha256" →
      Set.InjOn host.digest (bodyOf '' {record | record ∈ records ∨ record ∈ records'}) →
      records = records' := by
  intro bound
  have heads : (sealAnchor observer (anchorOfFirst 1)).get "head_sha256" =
      (sealAnchor observer (anchorOfFirst 0)).get "head_sha256" := by
    rw [sealAnchor, sealAnchor, get_sealed (by simp), get_sealed (by simp)]
    rfl
  have same := bound observer "T-1" oneRecord lostLedger _ _ _ _ load_oneRecord load_lostLedger
    anchor_oneRecord anchor_lostLedger heads
    (injOn_firstRecord fun record member => by simpa using member)
  cases same

/-- The ledger of both observations. -/
def bothLines : Bytes := recordLine observer firstRecord ++ recordLine observer secondRecord

example : (splitlines bothLines).length = 2 := by
  decide +kernel

theorem recover_bothLines :
    recoverStaleAnchor observer "T-1" (sealAnchor observer (anchorOfFirst 1)) bothLines =
      .ok (some (sealAnchor observer anchorOfBoth)) := by
  decide +kernel

theorem chain_bothLines : chainLines observer "T-1" 1 .null (splitlines bothLines) =
    .ok [firstRecord, secondRecord] := by
  decide +kernel

/-- The ledger of the first observation, and the second one found behind its anchor. -/
theorem evidence_bound_observations :
    ([firstRecord] = [firstRecord] ↔ oneRecord.ledger.isSome = oneRecord.ledger.isSome ∨
      (sealAnchor observer (anchorOfFirst 1)).get "head_sha256" = .null) ∧
    ∃ records, Holds observer "T-1" bothLines records ∧
      (∃ last ∈ records.getLast?, ∀ state,
        (loadEvidence observer "T-1"
          ⟨some bothLines, some (anchorText observer (sealAnchor observer anchorOfBoth)), state⟩
          true = .ok records ↔
        mergeSurrogates "T-1" = text "T-1" ∧ (revisionOf last).Plain)) := by
  obtain ⟨first, second⟩ := evidence_bound observer "T-1"
  refine ⟨first oneRecord oneRecord _ _ _ _ load_oneRecord load_oneRecord anchor_oneRecord
    anchor_oneRecord rfl (injOn_firstRecord fun record member => by simpa using member), ?_⟩
  obtain ⟨records, holds, counted, prior, writes⟩ := second oneRecord _ _ bothLines _ load_oneRecord
    anchor_oneRecord recover_bothLines
  obtain ⟨last, is, loads⟩ := writes _ rfl
  have two : records = [firstRecord, secondRecord] :=
    Except.ok.inj ((chainLines_eq_ok.mpr holds.2).symm.trans chain_bothLines)
  have plain : ((sealAnchor observer anchorOfBoth).erase "anchor_sha256").normalize =
      (sealAnchor observer anchorOfBoth).erase "anchor_sha256" := by
    decide +kernel
  refine ⟨records, holds, last, is, loads ?_ ?_⟩
  · rw [two]
    decide +kernel
  · rw [plain, Set.pair_eq_singleton]
    exact Set.injOn_singleton _ _

end Evidence

end CarbonLab.Aegis
