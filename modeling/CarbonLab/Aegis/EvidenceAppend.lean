import CarbonLab.Aegis.EvidenceRuns

/-!
# Appending to a verified ledger

What `append_evidence` writes is checked by `load_evidence` later.  The two agree exactly
on the arguments that `Appendable` describes.
-/

namespace CarbonLab.Aegis

namespace Evidence

variable {host : Host} {task : Text}

/-! ## The new anchor -/

/-- The fields of the anchor of a new record. -/
def newFields (task : Text) (count : ℤ) (head revision : Json) : List (Text × Json) :=
  [("schema", .int 1), ("task_id", .str task), ("count", .int (count + 1)),
    ("head_sha256", head), ("task_revision", revision)]

theorem newFields_proper (count : ℤ) (head revision : Json) :
    Unsealed "anchor_sha256" (newFields task count head revision) := by
  simp [Unsealed, newFields]

theorem ofPairs_newFields (count : ℤ) (head revision : Json) :
    Fields.ofPairs (newFields task count head revision) =
      [(text "count", .int (count + 1)), (text "head_sha256", head), (text "schema", .int 1),
        (text "task_id", .str task), (text "task_revision", revision)] := rfl

/-- Only the revision can change in a round trip. -/
theorem normalize_newFields {count : ℤ} {head revision : Json} (named : mergeSurrogates task = task)
    (headed : head.Plain) :
    (Json.obj (Fields.ofPairs (newFields task count head revision))).normalize =
      .obj (Fields.ofPairs (newFields task count head revision.normalize)) := by
  rw [ofPairs_newFields, ofPairs_newFields, Json.normalize]
  simp only [Json.normalizeFields, Json.normalize, mergeSurrogates_text, named]
  rw [show head.normalize = head from headed]
  rfl

/-- The text of the anchor tells the text of the revision. -/
theorem canonical_newFields {count : ℤ} {head first second : Json} :
    host.canonical (.obj (Fields.ofPairs (newFields task count head first))) =
        host.canonical (.obj (Fields.ofPairs (newFields task count head second))) ↔
      host.canonical first = host.canonical second := by
  rw [Host.canonical_inj, Host.canonical_inj, ofPairs_newFields, ofPairs_newFields, Json.dumps,
    Json.dumps, Json.dumps, Json.dumps, first.dump_compact host.floats 0 1,
    second.dump_compact host.floats 0 1]
  simp only [Json.dump, Json.dumpFields, List.cons.injEq, true_and, List.append_assoc,
    List.cons_append, List.append_cancel_left_eq, List.append_cancel_right_eq]

/-- The new anchor survives a round trip exactly if the text of its revision does. -/
theorem digest_newFields {count : ℤ} {head revision : Json} (named : mergeSurrogates task = task)
    (headed : head.Plain)
    (apart : Set.InjOn host.sha256 {
      host.canonical (.obj (Fields.ofPairs (newFields task count head revision))),
      host.canonical (.obj (Fields.ofPairs (newFields task count head revision.normalize)))}) :
    host.digest (Json.obj (Fields.ofPairs (newFields task count head revision))).normalize =
        host.digest (.obj (Fields.ofPairs (newFields task count head revision))) ↔
      host.canonical revision.normalize = host.canonical revision := by
  rw [normalize_newFields named headed, Host.digest, Host.digest,
    apart.eq_iff (by simp) (by simp), canonical_newFields]

/-! ## The new record -/

theorem recordBody_proper (arguments : Arguments) (epoch : ℤ) (id time : Text) (previous : Json)
    (count : ℤ) :
    Unsealed "record_sha256" (recordBody host task arguments epoch id time previous count) := by
  simp [Unsealed, recordBody]

/-- The details of a record. -/
def Arguments.redacted (arguments : Arguments) (host : Host) : Json :=
  host.redact (.dict (arguments.details.map fun detail => (.str detail.1, detail.2)))

/-- The parts of a record that a round trip can change. -/
def Arguments.Stable (arguments : Arguments) (host : Host) (task id : Text) : Prop :=
  mergeSurrogates id = id ∧ mergeSurrogates task = task ∧
    (Json.str (host.redactText (strip arguments.summary))).Plain ∧ (arguments.redacted host).Plain

/-- The checks of the arguments. -/
theorem checkArguments_facts {arguments : Arguments} {epoch : ℤ}
    (checked : checkArguments task arguments = .ok epoch) :
    arguments.kind ∈ evidenceKinds ∧ arguments.provenance ∈ provenanceTypes ∧
      strip arguments.summary ≠ [] ∧ 0 ≤ epoch := by
  rw [checkArguments] at checked
  simp only [bind_eq_ok, require_eq_ok, exists_const] at checked
  obtain ⟨kind, provenance, _, summary, _, rest⟩ := checked
  refine ⟨kind, provenance, summary, ?_⟩
  split at rest
  · next found is =>
      obtain rfl : found = epoch := Except.ok.inj rest
      rw [Arguments.epoch?] at is
      split at is
      · split at is
        · cases is
        · cases is
          omega
      · cases is
  · cases rest

theorem plain_kinds : ∀ kind ∈ evidenceKinds, mergeSurrogates kind = kind := by
  simp [evidenceKinds]

theorem plain_provenances : ∀ provenance ∈ provenanceTypes,
    mergeSurrogates provenance = provenance := by
  simp [provenanceTypes]

theorem plain_recordBody {arguments : Arguments} {epoch : ℤ} {id : Text} {ticks : ℕ}
    {previous : Json} {count : ℤ} (checked : checkArguments task arguments = .ok epoch)
    (linked : previous.Plain) :
    (sealRecord host (recordBody host task arguments epoch id (host.entropy.now ticks) previous
        count)).Plain ↔
      arguments.Stable host task id := by
  obtain ⟨kind, provenance, _, _⟩ := checkArguments_facts checked
  rw [sealRecord, (recordBody_proper arguments epoch id _ previous count).plain]
  constructor
  · intro plain
    refine ⟨Json.plain_str.mp (@Json.Plain.get? _ _ plain "id" rfl),
      Json.plain_str.mp (@Json.Plain.get? _ _ plain "task_id" rfl),
      @Json.Plain.get? _ _ plain "summary" rfl, @Json.Plain.get? _ _ plain "details" rfl⟩
  · rintro ⟨named, tasked, summary, details⟩
    refine Json.plain_ofPairs ?_
    have now : mergeSurrogates (host.entropy.now ticks) = host.entropy.now ticks :=
      mergeSurrogates_ascii (host.now_ascii ticks)
    rw [Json.plain_str] at summary
    simp only [recordBody, List.forall_mem_cons, List.not_mem_nil, false_implies, implies_true,
      mergeSurrogates_text, Json.plain_int, Json.plain_str, true_and, and_true]
    exact ⟨named, tasked, now, plain_kinds _ kind, summary, plain_provenances _ provenance,
      details, linked⟩

section

variable {arguments : Arguments} {epoch : ℤ} {id time : Text} {previous head : Json} {line : ℕ}

theorem ofPairs_recordBody : Fields.ofPairs
    (recordBody host task arguments epoch id time previous line) =
      [(text "at", .str time), (text "change_epoch", .int epoch),
        (text "details", arguments.redacted host), (text "id", .str id),
        (text "kind", .str arguments.kind), (text "previous_sha256", previous),
        (text "provenance", .str arguments.provenance), (text "schema", .int 2),
        (text "sequence", .int (line + 1)),
        (text "summary", .str (host.redactText (strip arguments.summary))),
        (text "task_id", .str task)] := rfl

/-- Schema 2 accepts a new record. -/
theorem validateSchemaTwo_new (checked : checkArguments task arguments = .ok epoch) :
    validateSchemaTwo task (line + 1) (.obj (Fields.ofPairs
      (recordBody host task arguments epoch id time previous line))) = .ok () := by
  obtain ⟨kind, provenance, _, positive⟩ := checkArguments_facts checked
  have kinds : inSet (.str arguments.kind) evidenceKinds = .ok true := by simp [inSet, kind]
  have provenances : inSet (.str arguments.provenance) provenanceTypes = .ok true := by
    simp [inSet, provenance]
  rw [validateSchemaTwo, ofPairs_recordBody]
  simp only [Json.get, Json.getD, Json.get?, Json.obj?, Option.bind_some, Fields.get?,
    text_eq_text, String.reduceEq, reduceIte, Option.getD_some, kinds, provenances]
  simp [Json.int_equal_int, Json.plainInt?, positive]

/-- What the reader asks of the fields of a new record. -/
theorem validateBody_new (checked : checkArguments task arguments = .ok epoch) :
    validateBody task (line + 1) (.obj (Fields.ofPairs
        (recordBody host task arguments epoch id time previous line))) head = .ok () ↔
      previous.equal head = true ∧ startsWith "E-" id = true := by
  obtain ⟨_, _, summary, _⟩ := checkArguments_facts checked
  have ink : strip (host.redactText (strip arguments.summary)) ≠ [] :=
    strip_ne_nil.mpr (Host.exists_ink_redactText (exists_ink_strip (strip_ne_nil.mp summary)))
  have second := @validateSchemaTwo_new host task arguments epoch id time previous line checked
  have object : (arguments.redacted host).obj?.isSome = true := rfl
  rw [ofPairs_recordBody] at second ⊢
  rw [validateBody]
  simp only [missing, required, List.filter, Json.get, Json.getD, Json.get?, Json.obj?,
    Option.bind_some, Fields.get?, text_eq_text, String.reduceEq, reduceIte, Option.getD_some,
    Option.isNone_some, bind_eq_ok, require_eq_ok, exists_const, Json.str?, Option.any_some]
  simp only [Json.obj?] at object
  simp [ink, object, second, Json.int_equal_int]

/-- What the reader asks of a new record. -/
theorem validateRecord_new (checked : checkArguments task arguments = .ok epoch) :
    validateRecord host task (line + 1) head
        (sealRecord host (recordBody host task arguments epoch id time previous line)) = .ok () ↔
      previous.equal head = true ∧ startsWith "E-" id = true := by
  have erased : bodyOf (sealRecord host
      (recordBody host task arguments epoch id time previous line)) = .obj (Fields.ofPairs
        (recordBody host task arguments epoch id time previous line)) :=
    (recordBody_proper arguments epoch id time previous line).erase
  have own : (sealRecord host
      (recordBody host task arguments epoch id time previous line)).get "record_sha256" =
      .str (host.digest (.obj (Fields.ofPairs
        (recordBody host task arguments epoch id time previous line)))) := get_sealed_self
  have object : (sealRecord host
      (recordBody host task arguments epoch id time previous line)).obj?.isSome = true := rfl
  rw [validateRecord_eq_ok, erased, own, validateBody_new checked]
  simp only [object, true_and]

end

/-! ## The new line -/

theorem recordLine_eq (record : Json) : recordLine host record = host.canonical record ++ [10] :=
  encode_append _ _

/-- A record is one line. -/
theorem splitlines_recordLine (record : Json) :
    splitlines (recordLine host record) = [host.canonical record] := by
  rw [recordLine_eq]
  refine splitlines_line ?_
  intro byte member
  have bounds := (encode_printable record.printable_dumps).2 byte member
  constructor
  · rintro rfl
    exact absurd bounds.1 (by decide)
  · rintro rfl
    exact absurd bounds.1 (by decide)

theorem wholeLines_recordLine (old : Bytes) (record : Json) :
    WholeLines (old ++ recordLine host record) := by
  rw [recordLine_eq, ← List.append_assoc]
  exact Or.inr (by simp)

/-- What is read behind the old lines. -/
theorem reads_append {old : Bytes} {records : List Json} (whole : WholeLines old)
    (reads : Reads host (splitlines old) records) {record : Json} {later : List Json} :
    Reads host (splitlines (old ++ recordLine host record)) (records ++ later) ↔
      later = [record.normalize] := by
  have line : loadsBytes host.floats (host.canonical record) = some record.normalize :=
    loadsBytes_dumps record
  rw [reads_iff_map] at reads
  rw [reads_iff_map, splitlines_append whole, splitlines_recordLine, List.map_append, reads,
    List.map_append, List.append_cancel_left_eq, List.map_singleton, line]
  constructor
  · intro same
    have mapped : later.map some = [record.normalize].map some := same.symm
    exact List.map_injective_iff.mpr (Option.some_injective _) mapped
  · rintro rfl
    rfl

theorem plain_headOf {records : List Json} {line : ℕ}
    (chained : Chained host task line .null records) : (headOf records).Plain := by
  rcases List.eq_nil_or_concat records with rfl | ⟨front, last, rfl⟩
  · rfl
  · rw [List.concat_eq_append] at chained ⊢
    obtain ⟨_, _, valid⟩ := chained.mem (List.mem_append_right front (List.mem_singleton_self last))
    rw [headOf, HashChain.endMark_concat, digest_of_valid valid]
    exact Host.plain_digest _

/-- Digests tell the new anchor from the one that is read back. -/
def AnchorApart (host : Host) (task : Text) (count : ℤ) (record revision : Json) : Prop :=
  Set.InjOn host.sha256 {
    host.canonical (.obj (Fields.ofPairs
      (newFields task count (record.get "record_sha256") revision))),
    host.canonical (.obj (Fields.ofPairs
      (newFields task count (record.get "record_sha256") revision.normalize)))}

/-- The new anchor is that of the records exactly if it survives a round trip. -/
theorem checkAnchor_new {records : List Json} {body : List (Text × Json)} {revision : Json}
    (apart : AnchorApart host task records.length (sealRecord host body) revision) :
    checkAnchor host task (some (anchorText host
        (newAnchor host task records.length (sealRecord host body) revision)))
        (records ++ [sealRecord host body]) = .ok () ↔
      mergeSurrogates task = task ∧
        host.canonical revision.normalize = host.canonical revision := by
  have own : (sealRecord host body).get "record_sha256" =
      .str (host.digest (.obj (Fields.ofPairs body))) := get_sealed_self
  have headed : ((sealRecord host body).get "record_sha256").Plain := by
    rw [own]
    exact Host.plain_digest _
  have proper : Unsealed "anchor_sha256" (newFields task records.length
      ((sealRecord host body).get "record_sha256") revision) := newFields_proper _ _ _
  have accepted (anchor : Json) := @loadAnchor_sealed host task _ proper rfl rfl anchor
  have found (key : Text) := @Unsealed.get?_normalize host _ _ proper key
  constructor
  · intro checked
    rw [checkAnchor] at checked
    obtain ⟨loaded, is, _⟩ := bind_eq_ok.mp checked
    cases loaded with
    | none => exact absurd is loadAnchor_some_ne_none
    | some anchor =>
        obtain ⟨_, named, digest⟩ := (accepted anchor).mp is
        exact ⟨named, (digest_newFields named headed apart).mp digest⟩
  · rintro ⟨named, stable⟩
    have loaded := (accepted _).mpr ⟨rfl, named, (digest_newFields named headed apart).mpr stable⟩
    refine (checkAnchor_eq_ok loaded).mpr ?_
    have counted : (sealAnchor host (newFields task records.length
        ((sealRecord host body).get "record_sha256") revision)).normalize.get "count" =
        .int (records.length + 1) := by
      rw [sealAnchor, Json.get, Json.getD, found, if_neg (by simp)]
      rfl
    have head : (sealAnchor host (newFields task records.length
        ((sealRecord host body).get "record_sha256") revision)).normalize.get "head_sha256" =
        (sealRecord host body).get "record_sha256" := by
      rw [sealAnchor, Json.get, Json.getD, found, if_neg (by simp)]
      exact headed
    rw [Option.all_some, Bool.and_eq_true, counted, head, headOf, HashChain.endMark_concat, own]
    refine ⟨Json.int_equal_int.mpr ?_, Json.equal_str.mpr rfl⟩
    simp

section

variable {arguments : Arguments} {epoch : ℤ} {id : Text} {ticks : ℕ} {previous revision : Json}
  {old : Bytes} {records : List Json} {state : Option Bytes}

/-- The ledger behind a new record loads exactly if the record continues the chain, has a
new identifier, and is read back as it was. -/
theorem load_appended_iff (holds : Holds host task old records)
    (distinct : (records.map (·.get "id")).Nodup)
    (checked : checkArguments task arguments = .ok epoch)
    (apart : AnchorApart host task records.length (sealRecord host (recordBody host task arguments
      epoch id (host.entropy.now ticks) previous records.length)) revision) :
    loadEvidence host task
        ⟨some (old ++ recordLine host (sealRecord host (recordBody host task arguments epoch id
            (host.entropy.now ticks) previous records.length))),
          some (anchorText host (newAnchor host task records.length (sealRecord host (recordBody
            host task arguments epoch id (host.entropy.now ticks) previous records.length))
              revision)), state⟩ true =
        .ok (records ++ [sealRecord host (recordBody host task arguments epoch id
          (host.entropy.now ticks) previous records.length)]) ↔
      previous = headOf records ∧ startsWith "E-" id = true ∧
        (∀ record ∈ records, record.get "id" ≠ .str id) ∧ arguments.Stable host task id ∧
        host.canonical revision.normalize = host.canonical revision := by
  obtain ⟨whole, reads, chained⟩ := holds
  have known := noneOrText_headOf (Or.inl rfl) chained
  have named : (sealRecord host (recordBody host task arguments epoch id (host.entropy.now ticks)
      previous records.length)).get "id" = .str id := get_sealed (by simp)
  have ids : ((records ++ [sealRecord host (recordBody host task arguments epoch id
      (host.entropy.now ticks) previous records.length)]).map (·.get "id")).Nodup ↔
      ∀ record ∈ records, record.get "id" ≠ .str id := by
    rw [List.map_append, List.nodup_append]
    simp [distinct, named]
  have links : Chained host task 1 .null (records ++ [sealRecord host (recordBody host task
      arguments epoch id (host.entropy.now ticks) previous records.length)]) ↔
      previous = headOf records ∧ startsWith "E-" id = true := by
    rw [chained_append, Chained, Chained, Nat.add_comm 1, validateRecord_new checked,
      equal_of_noneOrText known, headOf]
    simp [chained]
  rw [loadEvidence_some, Holds, reads_append whole reads, links, ids, checkAnchor_new apart]
  constructor
  · rintro ⟨⟨_, read, link, start⟩, fresh, _, stable⟩
    have plain := (List.cons.inj read).1.symm
    subst link
    exact ⟨rfl, start, fresh, (plain_recordBody checked (plain_headOf chained)).mp plain, stable⟩
  · rintro ⟨rfl, start, fresh, stable, canonical⟩
    have plain : (sealRecord host (recordBody host task arguments epoch id (host.entropy.now ticks)
        (headOf records) records.length)).normalize = _ :=
      (plain_recordBody checked (plain_headOf chained)).mpr stable
    refine ⟨⟨wholeLines_recordLine _ _, by rw [plain], rfl, start⟩, fresh, stable.2.1, canonical⟩

end

/-! ## A verified ledger -/

theorem holds_nil : Holds host task [] [] :=
  ⟨Or.inl rfl, List.Forall₂.nil, trivial⟩

/-- The records of a ledger that loads. -/
theorem holds_of_load {files : TaskFiles} {records : List Json}
    (loaded : loadEvidence host task files true = .ok records) :
    Holds host task (files.ledger.getD []) records ∧ (records.map (·.get "id")).Nodup := by
  obtain ⟨_ | raw, anchor, state⟩ := files
  · obtain ⟨rfl, -⟩ := loadEvidence_none.mp loaded
    exact ⟨holds_nil, List.nodup_nil⟩
  · obtain ⟨holds, distinct, -⟩ := loadEvidence_some.mp loaded
    exact ⟨holds, distinct⟩

/-- An anchor without its ledger names no head. -/
def HeadKnown (host : Host) (task : Text) (files : TaskFiles) : Prop :=
  files.ledger = none → ∀ anchor, loadAnchor host task files.anchor = .ok (some anchor) →
    anchor.get "head_sha256" = .null

/-- What `append_evidence` compares the tail with, on a ledger that loads. -/
theorem compareTail_of_load {files : TaskFiles} {records : List Json} {anchor : Json}
    {tail repaired : Option Json} (loaded : loadEvidence host task files true = .ok records)
    (is : loadAnchor host task files.anchor = .ok (some anchor))
    (compared : compareTail host task anchor files.ledger tail = .ok repaired) :
    repaired = none := by
  rw [compareTail.eq_def] at compared
  split at compared
  · obtain ⟨_, _, missing⟩ := bind_eq_ok.mp compared
    cases missing
    rfl
  · cases tail with
    | none => cases compared
    | some tail =>
        obtain ⟨_, _, compared⟩ := bind_eq_ok.mp compared
        split at compared
        · cases compared
          rfl
        · -- The repair finds as many records as the anchor counts.
          obtain ⟨others, count, holds, counted, _, _, result⟩ :=
            recoverStaleAnchor_eq_ok compared
          obtain rfl : records = others := (holds_of_load loaded).1.2.1.unique holds.2.1
          obtain rfl := count_of_load loaded is counted
          rcases result with ⟨absent, -⟩ | ⟨filled, -⟩
          · exact absent
          · exact absurd rfl filled

/-- What `append_evidence` takes from a ledger that loads. -/
theorem selectAnchor_of_load {files : TaskFiles} {records : List Json}
    {selected : Json × ℤ × Option Json} (loaded : loadEvidence host task files true = .ok records)
    (chosen : selectAnchor host task files = .ok selected) :
    selected.2.1 = records.length ∧ selected.2.2 = none ∧
      (selected.1 = headOf records ↔ HeadKnown host task files) := by
  rw [selectAnchor] at chosen
  obtain ⟨found, is, chosen⟩ := bind_eq_ok.mp chosen
  cases found with
  | none =>
      simp only [loaded, ok_bind] at chosen
      cases chosen
      refine ⟨rfl, rfl, fun _ _ anchor is' => ?_, fun _ => rfl⟩
      rw [is] at is'
      cases is'
  | some anchor =>
      simp only [bind_eq_ok] at chosen
      obtain ⟨tail, _, repaired, compared, count, counted, chosen⟩ := chosen
      cases chosen
      obtain rfl := compareTail_of_load loaded is compared
      refine ⟨count_of_load loaded is counted, rfl, ?_⟩
      change anchor.get "head_sha256" = headOf records ↔ _
      obtain ⟨_ | raw, anchorFile, state⟩ := files
      · obtain ⟨rfl, -⟩ := loadEvidence_none.mp loaded
        constructor
        · intro head _ anchor' is'
          rw [is] at is'
          cases is'
          exact head
        · exact fun known => known rfl anchor is
      · constructor
        · intro _ missing
          cases missing
        · exact fun _ => headOf_load loaded is

/-- The arguments and files for which what is written can be read. -/
structure Appendable (host : Host) (task : Text) (arguments : Arguments) (store : Store)
    (records : List Json) : Prop where
  named : startsWith "E-" (arguments.id host store.ticks) = true
  fresh : ∀ record ∈ records, record.get "id" ≠ .str (arguments.id host store.ticks)
  stable : arguments.Stable host task (arguments.id host store.ticks)
  revision : ∀ revision ∈ arguments.revision host,
    host.canonical revision.normalize = host.canonical revision
  head : HeadKnown host task store.files

/-- `append_evidence` keeps a verified ledger verifiable exactly for the arguments and
files that `Appendable` describes; where it raises before its first write, ledger and
anchor are as they were. -/
theorem appendEvidence_keeps (host : Host) (task : Text) (arguments : Arguments) (store : Store)
    (records : List Json) (loaded : loadEvidence host task store.files true = .ok records) :
    (∀ record final, (appendEvidence host task arguments).run (serve host) store =
        (.ok record, final) →
      (∀ revision ∈ arguments.revision host,
        AnchorApart host task records.length record revision) →
      (loadEvidence host task final.files true = .ok (records ++ [record]) ↔
        Appendable host task arguments store records)) ∧
    ∀ error final, (appendEvidence host task arguments).run (serve host) store =
        (.error error, final) →
      (∀ call ∈ (appendEvidence host task arguments).requests (serve host) store,
        call.writes = false) →
      final.files.ledger = store.files.ledger ∧ final.files.anchor = store.files.anchor := by
  constructor
  · intro record final ran apart
    obtain ⟨plan, revision, planned, revised, rfl, files⟩ := run_appendEvidence ran
    rw [appendPlan] at planned
    simp only [bind_eq_ok] at planned
    obtain ⟨epoch, checked, _, _, selected, chosen, planned⟩ := planned
    cases planned
    obtain ⟨count, missing, head⟩ := selectAnchor_of_load loaded chosen
    obtain ⟨holds, distinct⟩ := holds_of_load loaded
    have apart := apart revision revised
    rw [files]
    simp only [Plan.done, Plan.record, count] at apart ⊢
    rw [load_appended_iff holds distinct checked apart, head]
    constructor
    · rintro ⟨known, named, fresh, stable, canonical⟩
      refine ⟨named, fresh, stable, ?_, known⟩
      intro other is
      rw [revised] at is
      cases is
      exact canonical
    · rintro ⟨named, fresh, stable, canonical, known⟩
      exact ⟨known, named, fresh, stable, canonical revision revised⟩
  · intro error final ran reads
    have kept : ((appendEvidence host task arguments).run (serve host) store).2.files =
        store.files := by
      apply Program.run_unchanged
      intro call member state
      have reads := reads call member
      cases call with
      | look => rfl
      | now => rfl
      | uuid => rfl
      | _ => cases reads
    rw [ran] at kept
    rw [kept]
    exact ⟨rfl, rfl⟩

/-- The arguments of an observation. -/
def observing (id : Text) : Arguments where
  kind := "observation"
  summary := "seen"
  provenance := "manual"
  framework := false
  evidenceId := some id
  taskId := none
  details := []

theorem anchorApart_null {count : ℤ} {record : Json} :
    AnchorApart host task count record .null := by
  rw [AnchorApart, Json.normalize, Set.pair_eq_singleton]
  exact Set.injOn_singleton _ _

theorem revision_observing {id : Text} : ∀ revision ∈ (observing id).revision host,
    revision = .null := by
  intro revision is
  exact (Option.some.inj is).symm

/-- What is written behind the first observation. -/
def behindFirst (id : Text) : Plan where
  repaired := none
  epoch := 0
  previous := .str (hexText firstDigest)
  count := 1
  id := id
  time := "2026-01-01T00:00:00+00:00"

example : (behindFirst "E-2").record observer "T-1" (observing "E-2") = secondRecord := by
  decide +kernel

theorem plan_second : appendPlan observer "T-1" (observing "E-2") ⟨oneRecord, 0⟩ =
    .ok (behindFirst "E-2") := by
  decide +kernel

theorem plan_twice : appendPlan observer "T-1" (observing "E-1") ⟨oneRecord, 0⟩ =
    .ok (behindFirst "E-1") := by
  decide +kernel

/-- A second observation is appended and read back. -/
theorem appendEvidence_keeps_observation : ∃ final,
    (appendEvidence observer "T-1" (observing "E-2")).run (serve observer) ⟨oneRecord, 0⟩ =
      (.ok secondRecord, final) ∧
    loadEvidence observer "T-1" final.files true = .ok [firstRecord, secondRecord] := by
  obtain ⟨final, ran, _⟩ := run_of_plan plan_second rfl
  have kept := (appendEvidence_keeps observer "T-1" (observing "E-2") ⟨oneRecord, 0⟩ [firstRecord]
    load_oneRecord).1 _ final ran ?_
  · refine ⟨final, ran, kept.mpr ⟨by decide +kernel, ?_, ?_, ?_, ?_⟩⟩
    · decide +kernel
    · exact ⟨by decide +kernel, by decide +kernel, by decide +kernel, by decide +kernel⟩
    · intro revision is
      rw [revision_observing revision is, Json.normalize]
    · intro missing
      cases missing
  · intro revision is
    rw [revision_observing revision is]
    exact anchorApart_null

/-- An identifier that the ledger has already is written again, and the ledger does not
load any more. -/
theorem observedTwice_not_kept :
    ¬ ∀ (host : Host) (task : Text) (arguments : Arguments) (store : Store) (records : List Json),
      loadEvidence host task store.files true = .ok records →
      ∀ record final, (appendEvidence host task arguments).run (serve host) store =
        (.ok record, final) →
      (∀ revision ∈ arguments.revision host,
        AnchorApart host task records.length record revision) →
      loadEvidence host task final.files true = .ok (records ++ [record]) := by
  intro kept
  obtain ⟨final, ran, _⟩ := run_of_plan plan_twice rfl
  have loads := kept observer "T-1" (observing "E-1") ⟨oneRecord, 0⟩ _ load_oneRecord _ final ran
    (fun revision is => by
      rw [revision_observing revision is]
      exact anchorApart_null)
  obtain ⟨_, distinct⟩ := holds_of_load loads
  have same : firstRecord.get "id" = ((behindFirst "E-1").record observer "T-1"
      (observing "E-1")).get "id" := by
    decide +kernel
  rw [List.map_append, List.map_singleton, List.map_singleton, same] at distinct
  simp at distinct

end Evidence

end CarbonLab.Aegis
