import CarbonLab.Aegis.EvidenceAppend

/-!
# Appending after a crash

Ledger and anchor are two files, and a crash of `append_evidence` or of
`rollback_last_evidence` can leave them apart.  The next `append_evidence` brings them
together again exactly for the files that `Recoverable` describes.
-/

namespace CarbonLab.Aegis

namespace Evidence

variable {host : Host} {task : Text}

/-! ## Files to continue from -/

/-- An anchor from which `append_evidence` continues a ledger: it names the last of the
records it counts, counts none only if there is none, and all of them if it names the
tail. -/
def Continues (host : Host) (ledger : Option Bytes) (anchor : Json) (records : List Json) : Prop :=
  ∃ (tail : Option Json) (count : ℤ), tailRecord host ledger = .ok tail ∧
    (if (anchor.get "count").equal (.int 0) then tail = none
      else ∃ last, tail = some last ∧ last.obj?.isSome = true ∧
        ((last.get "record_sha256").equal (anchor.get "head_sha256") = true →
          count = records.length)) ∧
    host.int (anchor.getD "count" (.int 0)) = .ok count ∧ count ≤ records.length ∧
    anchoredHead records count = .ok (anchor.get "head_sha256")

/-- The files from which the next `append_evidence` continues: whole lines of chained
records with distinct identifiers, and an anchor to continue from, if there is one. -/
structure Recoverable (host : Host) (task : Text) (files : TaskFiles) (records : List Json) :
    Prop where
  holds : Holds host task (files.ledger.getD []) records
  distinct : (records.map (·.get "id")).Nodup
  anchored : ∃ found, loadAnchor host task files.anchor = .ok found ∧
    ∀ anchor ∈ found, Continues host files.ledger anchor records

theorem holds_empty {records : List Json} (holds : Holds host task [] records) : records = [] :=
  List.forall₂_nil_left_iff.mp holds.2.1

/-- A ledger without a tail is empty. -/
theorem tailRecord_eq_none {ledger : Option Bytes} (missing : tailRecord host ledger = .ok none) :
    ledger.getD [] = [] := by
  rw [tailRecord.eq_def] at missing
  split at missing
  · rfl
  · split at missing
    · next empty => exact empty
    · split at missing
      · cases missing
      · simp only at missing
        split at missing
        · cases missing
        · split at missing <;> cases missing

/-- A ledger with a tail ends with it. -/
theorem wholeLines_of_tailRecord {ledger : Option Bytes} {tail : Option Json}
    (found : tailRecord host ledger = .ok tail) : WholeLines (ledger.getD []) := by
  rw [tailRecord.eq_def] at found
  split at found
  · exact Or.inl rfl
  · split at found
    · next empty => exact Or.inl empty
    · split at found
      · cases found
      · next ends => exact Or.inr (not_not.mp ends)

theorem mem_of_index {items : List Json} {position : ℤ} {item : Json}
    (found : index items position = .ok item) : item ∈ items := by
  simp only [index] at found
  generalize (if position < 0 then position + items.length else position) = place at found
  by_cases negative : place < 0
  · rw [if_pos negative] at found
    cases found
  · rw [if_neg negative] at found
    split at found
    · next there =>
        cases found
        exact List.mem_of_getElem? there
    · cases found

/-- A digest to continue from is missing or is a string. -/
theorem noneOrText_anchoredHead {records : List Json} {count : ℤ} {head : Json} {line : ℕ}
    {previous : Json} (chained : Chained host task line previous records)
    (anchored : anchoredHead records count = .ok head) : NoneOrText head := by
  rw [anchoredHead] at anchored
  split at anchored
  · cases anchored
    exact Or.inl rfl
  · obtain ⟨record, found, anchored⟩ := bind_eq_ok.mp anchored
    cases anchored
    obtain ⟨_, _, valid⟩ := chained.mem (mem_of_index found)
    exact Or.inr ⟨_, digest_of_valid valid⟩

theorem equal_self_of_noneOrText {value : Json} (known : NoneOrText value) :
    value.equal value = true :=
  (equal_of_noneOrText known).mpr rfl

theorem eq_of_equal_noneOrText {value other : Json} (known : NoneOrText value)
    (same : value.equal other = true) : value = other := by
  rcases known with rfl | ⟨string, rfl⟩
  · exact (Json.null_equal.mp same).symm
  · exact (Json.str_equal.mp same).symm

/-- Without records nothing is counted. -/
theorem count_of_anchoredHead_nil {count : ℤ} {head : Json}
    (anchored : anchoredHead [] count = .ok head) : count = 0 := by
  by_contra filled
  rw [anchoredHead, if_neg filled] at anchored
  obtain ⟨record, found, _⟩ := bind_eq_ok.mp anchored
  simp [index] at found

/-! ## The next append -/

/-- The stale anchor of a ledger that continues it is repaired, if it is stale. -/
theorem recoverStaleAnchor_of_continues {anchor : Json} {raw : Bytes} {records : List Json}
    {count : ℤ} (holds : Holds host task raw records)
    (counted : host.int (anchor.getD "count" (.int 0)) = .ok count)
    (bound : count ≤ records.length)
    (anchored : anchoredHead records count = .ok (anchor.get "head_sha256")) :
    ∃ repaired, recoverStaleAnchor host task anchor raw = .ok repaired ∧
      host.int ((repaired.getD anchor).getD "count" (.int 0)) = .ok (records.length : ℤ) ∧
      (repaired.getD anchor).get "head_sha256" = headOf records := by
  obtain ⟨whole, reads, chained⟩ := holds
  have lines : chainLines host task 1 .null (splitlines raw) = .ok records :=
    chainLines_eq_ok.mpr ⟨reads, chained⟩
  have same : (anchor.get "head_sha256").equal (anchor.get "head_sha256") = true :=
    equal_self_of_noneOrText (noneOrText_anchoredHead chained anchored)
  rw [recoverStaleAnchor]
  simp only [whole, lines, counted, bound, anchored, same, require_true, ok_bind]
  by_cases all : count = records.length
  · refine ⟨none, if_pos all, ?_, ?_⟩
    · rw [Option.getD_none, counted, all]
    · rw [all, anchoredHead_natCast le_rfl, List.take_length] at anchored
      exact (Except.ok.inj anchored).symm
  · have filled : records ≠ [] := by
      rintro rfl
      exact all (count_of_anchoredHead_nil anchored)
    have last : index records (-1) = .ok (records.getLast filled) :=
      index_last.mpr (List.getLast?_eq_getLast_of_ne_nil filled)
    refine ⟨_, by rw [if_neg all, last]; rfl, ?_, ?_⟩
    · rfl
    · rw [headOf, HashChain.endMark, List.getLast?_eq_getLast_of_ne_nil filled]
      exact get_sealed (by simp)

/-- What the next append takes from the files. -/
theorem selectAnchor_of_recoverable {files : TaskFiles} {records : List Json}
    (recoverable : Recoverable host task files records) :
    ∃ repaired, selectAnchor host task files =
      .ok (headOf records, (records.length : ℤ), repaired) := by
  obtain ⟨holds, distinct, found, is, continues⟩ := recoverable
  rw [selectAnchor, is, ok_bind]
  cases found with
  | none =>
      refine ⟨none, ?_⟩
      have loaded : loadEvidence host task files true = .ok records := by
        obtain ⟨_ | raw, anchor, state⟩ := files
        · exact loadEvidence_none.mpr ⟨holds_empty holds, none, is, rfl⟩
        · exact loadEvidence_some.mpr ⟨holds, distinct, (checkAnchor_eq_ok is).mpr rfl⟩
      rw [loaded]
      rfl
  | some anchor =>
      obtain ⟨tail, count, found, compared, counted, bound, anchored⟩ := continues anchor rfl
      simp only [found, ok_bind]
      split at compared
      · next zero =>
          subst compared
          rw [tailRecord_eq_none found] at holds
          obtain rfl := holds_empty holds
          obtain rfl := count_of_anchoredHead_nil anchored
          have compared : compareTail host task anchor files.ledger none = .ok none := by
            rw [compareTail.eq_def, if_pos zero]
            rfl
          refine ⟨none, ?_⟩
          simp only [compared, ok_bind, Option.getD_none, counted]
          rw [← Except.ok.inj anchored]
          rfl
      · next nonzero =>
          obtain ⟨last, rfl, object, all⟩ := compared
          by_cases same : (last.get "record_sha256").equal (anchor.get "head_sha256") = true
          · obtain rfl := all same
            have compared : compareTail host task anchor files.ledger (some last) = .ok none := by
              rw [compareTail.eq_def, if_neg nonzero]
              simp only [object, require_true, ok_bind, if_pos same]
              rfl
            refine ⟨none, ?_⟩
            simp only [compared, ok_bind, Option.getD_none, counted]
            rw [anchoredHead_natCast le_rfl, List.take_length] at anchored
            rw [← Except.ok.inj anchored]
            rfl
          · obtain ⟨repaired, recovered, counted, head⟩ :=
              recoverStaleAnchor_of_continues holds counted bound anchored
            have compared : compareTail host task anchor files.ledger (some last) =
                .ok repaired := by
              rw [compareTail.eq_def, if_neg nonzero]
              simp only [object, require_true, ok_bind, if_neg same, recovered]
            refine ⟨repaired, ?_⟩
            simp only [compared, ok_bind, counted, head]
            rfl

/-- Valid arguments for a task that takes evidence: they pass the checks of
`append_evidence`, what they write can be read back, and the identifier is new. -/
structure Ready (host : Host) (task : Text) (arguments : Arguments) (store : Store) : Prop where
  checked : ∃ epoch, checkArguments task arguments = .ok epoch
  allowed : checkTaskState host store.files.state = .ok ()
  named : startsWith "E-" (arguments.id host store.ticks) = true
  fresh : ∀ records, Holds host task (store.files.ledger.getD []) records →
    ∀ record ∈ records, record.get "id" ≠ .str (arguments.id host store.ticks)
  stable : arguments.Stable host task (arguments.id host store.ticks)
  revised : ∃ revision, arguments.revision host = some revision ∧
    host.canonical revision.normalize = host.canonical revision

theorem anchorApart_of_canonical {count : ℤ} {record revision : Json}
    (stable : host.canonical revision.normalize = host.canonical revision) :
    AnchorApart host task count record revision := by
  rw [AnchorApart, canonical_newFields.mpr stable.symm, Set.pair_eq_singleton]
  exact Set.injOn_singleton _ _

section

variable {arguments : Arguments} {store : Store}

/-- The next append continues from files that are recoverable. -/
theorem recovers_of_recoverable {records : List Json} (ready : Ready host task arguments store)
    (recoverable : Recoverable host task store.files records) :
    ∃ record final, (appendEvidence host task arguments).run (serve host) store =
        (.ok record, final) ∧
      loadEvidence host task final.files true = .ok (records ++ [record]) := by
  obtain ⟨epoch, checked⟩ := ready.checked
  obtain ⟨revision, revised, canonical⟩ := ready.revised
  obtain ⟨repaired, selected⟩ := selectAnchor_of_recoverable recoverable
  have planned : appendPlan host task arguments store = .ok {
      repaired, epoch, previous := headOf records, count := records.length
      id := arguments.id host store.ticks
      time := host.entropy.now (arguments.ticks store.ticks) } := by
    rw [appendPlan, checked, ready.allowed, selected]
    rfl
  obtain ⟨final, ran, files⟩ := run_of_plan planned revised
  refine ⟨_, final, ran, ?_⟩
  rw [files]
  refine (load_appended_iff recoverable.holds recoverable.distinct checked
    (anchorApart_of_canonical canonical)).mpr ?_
  exact ⟨rfl, ready.named, ready.fresh records recoverable.holds, ready.stable, canonical⟩

/-- What is read back as the head of the records was their head. -/
theorem eq_headOf_of_normalize {value : Json} {records : List Json} {line : ℕ}
    (chained : Chained host task line .null records) (read : value.normalize = headOf records) :
    value = headOf records := by
  rcases List.eq_nil_or_concat records with rfl | ⟨front, last, rfl⟩
  · exact Json.normalize_eq_null.mp read
  · rw [List.concat_eq_append] at chained read ⊢
    obtain ⟨_, _, valid⟩ := chained.mem (List.mem_append_right front (List.mem_singleton_self last))
    rw [headOf, HashChain.endMark_concat, digest_of_valid valid] at read ⊢
    obtain ⟨string, rfl, merged⟩ := Json.normalize_eq_str.mp read
    have ascii : ∀ letter ∈ mergeSurrogates string, letter.val < 128 := by
      rw [merged]
      exact Host.digest_ascii _
    rw [← merged, eq_of_mergeSurrogates_ascii ascii]

/-- A record of schema 2 has its line number. -/
theorem sequence_of_valid {line : ℕ} {previous record : Json}
    (valid : validateRecord host task line previous record = .ok ())
    (second : record.get? "schema" = some (.int 2)) :
    (record.get "sequence").equal (.int line) = true := by
  have schema : (bodyOf record).getD "schema" (.int 1) = .int 2 := by
    rw [bodyOf, Json.getD, Json.get?_erase _ (by simp), second]
    rfl
  have body := (validateRecord_eq_ok.mp valid).2.2
  rw [validateBody] at body
  simp only [bind_eq_ok, require_eq_ok, exists_const, schema] at body
  obtain ⟨_, _, _, _, _, rest⟩ := body
  rw [if_neg (by simp [Json.int_equal_int])] at rest
  simp only [bind_eq_ok, require_eq_ok, exists_const] at rest
  obtain ⟨_, rest⟩ := rest
  rw [validateSchemaTwo] at rest
  simp only [bind_eq_ok, require_eq_ok, exists_const] at rest
  have sequence := rest.2.1
  rwa [bodyOf, Json.get_erase _ (by simp)] at sequence

theorem wholeLines_of_select {files : TaskFiles} {selected : Json × ℤ × Option Json}
    (chosen : selectAnchor host task files = .ok selected) : WholeLines (files.ledger.getD []) := by
  rw [selectAnchor] at chosen
  obtain ⟨found, _, chosen⟩ := bind_eq_ok.mp chosen
  cases found with
  | none =>
      obtain ⟨existing, loaded, _⟩ := bind_eq_ok.mp chosen
      exact (holds_of_load loaded).1.1
  | some anchor =>
      obtain ⟨tail, found, _⟩ := bind_eq_ok.mp chosen
      exact wholeLines_of_tailRecord found

/-- The records that are read before a new line. -/
theorem reads_concat {old : Bytes} {record : Json} {after : List Json} (whole : WholeLines old)
    (reads : Reads host (splitlines (old ++ recordLine host record)) after) :
    ∃ records, Reads host (splitlines old) records ∧ after = records ++ [record.normalize] := by
  have line : loadsBytes host.floats (host.canonical record) = some record.normalize :=
    loadsBytes_dumps record
  rw [reads_iff_map, splitlines_append whole, splitlines_recordLine, List.map_append,
    List.map_singleton, line] at reads
  rcases List.eq_nil_or_concat after with rfl | ⟨records, last, rfl⟩
  · simp at reads
  · rw [List.concat_eq_append, List.map_append, List.map_singleton] at reads
    obtain ⟨front, back⟩ := List.append_inj' reads rfl
    refine ⟨records, reads_iff_map.mpr front, ?_⟩
    rw [List.concat_eq_append, Option.some.inj (List.cons.inj back).1]

/-- Where the next append takes up a ledger that loads afterwards. -/
theorem continues_of_select {files : TaskFiles} {records : List Json} {anchor : Json}
    {selected : Json × ℤ × Option Json}
    (holds : Holds host task (files.ledger.getD []) records)
    (is : loadAnchor host task files.anchor = .ok (some anchor))
    (chosen : selectAnchor host task files = .ok selected) (count : selected.2.1 = records.length)
    (head : selected.1 = headOf records) : Continues host files.ledger anchor records := by
  rw [selectAnchor, is, ok_bind] at chosen
  simp only [bind_eq_ok] at chosen
  obtain ⟨tail, found, repaired, compared, number, counted, chosen⟩ := chosen
  cases chosen
  simp only at count head
  subst count
  rw [compareTail.eq_def] at compared
  split at compared
  · next zero =>
      simp only [bind_eq_ok, require_eq_ok, exists_const] at compared
      obtain ⟨missing, same⟩ := compared
      cases same
      subst missing
      rw [tailRecord_eq_none found] at holds
      obtain rfl := holds_empty holds
      refine ⟨none, 0, found, by rw [if_pos zero], int_of_count zero, le_rfl, ?_⟩
      rw [Option.getD_none] at head
      rw [head]
      rfl
  · next nonzero =>
      cases tail with
      | none => cases compared
      | some last =>
          simp only [bind_eq_ok, require_eq_ok, exists_const] at compared
          obtain ⟨object, compared⟩ := compared
          split at compared
          · cases compared
            rw [Option.getD_none] at head counted
            refine ⟨some last, _, found, ?_, counted, le_rfl, ?_⟩
            · rw [if_neg nonzero]
              exact ⟨last, rfl, object, fun _ => rfl⟩
            · rw [anchoredHead_natCast le_rfl, List.take_length, head]
          · next differs =>
              obtain ⟨others, count, held, counted, bound, ⟨top, anchored, same⟩, _⟩ :=
                recoverStaleAnchor_eq_ok compared
              obtain rfl : records = others := holds.2.1.unique held.2.1
              refine ⟨some last, count, found, ?_, counted, bound, ?_⟩
              · rw [if_neg nonzero]
                exact ⟨last, rfl, object, fun same => absurd same differs⟩
              · rw [anchored, eq_of_equal_noneOrText
                  (noneOrText_anchoredHead holds.2.2 anchored) same]

/-- A new record that is read back says where it was put. -/
theorem taken_of_valid {epoch count : ℤ} {id time : Text} {previous : Json} {records : List Json}
    (before : Chained host task 1 .null records)
    (valid : validateRecord host task (1 + records.length) (headOf records) (sealRecord host
      (recordBody host task arguments epoch id time previous count)).normalize = .ok ()) :
    count = records.length ∧ previous = headOf records := by
  have proper : Unsealed "record_sha256"
      (recordBody host task arguments epoch id time previous count) :=
    recordBody_proper arguments epoch id time previous count
  have found (key : Text) := @Unsealed.get?_normalize host _ _ proper key
  constructor
  · have sequence := sequence_of_valid valid (by rw [sealRecord, found, if_neg (by simp)]; rfl)
    have is : (sealRecord host (recordBody host task arguments epoch id time previous
        count)).normalize.get "sequence" = .int (count + 1) := by
      rw [sealRecord, Json.get, Json.getD, found, if_neg (by simp)]
      rfl
    rw [is, Json.int_equal_int] at sequence
    omega
  · have linked := (validateBody_facts (validateRecord_eq_ok.mp valid).2.2).1
    have is : (sealRecord host (recordBody host task arguments epoch id time previous
        count)).normalize.get "previous_sha256" = previous.normalize := by
      rw [sealRecord, Json.get, Json.getD, found, if_neg (by simp)]
      rfl
    rw [bodyOf, Json.get_erase _ (by simp), is] at linked
    have known : NoneOrText (headOf records) := noneOrText_headOf (Or.inl rfl) before
    exact eq_headOf_of_normalize before ((equal_of_noneOrText known).mp linked)

/-- A ledger that loads after the next append was recoverable. -/
theorem recoverable_of_recovers {record : Json} {final : Store} {after : List Json}
    (ran : (appendEvidence host task arguments).run (serve host) store = (.ok record, final))
    (loaded : loadEvidence host task final.files true = .ok after) :
    ∃ records last, Recoverable host task store.files records ∧ after = records ++ [last] := by
  obtain ⟨plan, revision, planned, revised, rfl, files⟩ := run_appendEvidence ran
  rw [appendPlan] at planned
  simp only [bind_eq_ok] at planned
  obtain ⟨epoch, checked, _, _, selected, chosen, planned⟩ := planned
  cases planned
  rw [files] at loaded
  simp only [Plan.done, Plan.record] at loaded
  obtain ⟨⟨_, read, chained⟩, distinct, _⟩ := loadEvidence_some.mp loaded
  have whole := wholeLines_of_select chosen
  obtain ⟨records, reads, rfl⟩ := reads_concat whole read
  obtain ⟨before, valid, -⟩ := chained_append.mp chained
  have holds : Holds host task (store.files.ledger.getD []) records := ⟨whole, reads, before⟩
  rw [List.map_append, List.nodup_append] at distinct
  refine ⟨records, _, ⟨holds, distinct.1, ?_⟩, rfl⟩
  obtain ⟨count, head⟩ := taken_of_valid before valid
  obtain ⟨found, is, _⟩ := bind_eq_ok.mp (show selectAnchor host task store.files = _ from chosen)
  refine ⟨found, is, ?_⟩
  rintro anchor rfl
  exact continues_of_select holds is chosen count head

/-! ## Crashes -/

/-- The next append returns, and the ledger loads with the records that are kept. -/
def Recovers (host : Host) (task : Text) (arguments : Arguments) (store : Store)
    (kept : List Json) : Prop :=
  ∃ record final after,
    (appendEvidence host task arguments).run (serve host) store = (.ok record, final) ∧
      loadEvidence host task final.files true = .ok after ∧ kept <+: after

/-- The records of a ledger to which something was added start with those it had. -/
theorem prefix_of_holds {old part : Bytes} {records later : List Json}
    (holds : Holds host task old records) (held : Holds host task (old ++ part) later) :
    records <+: later := by
  have front := reads_iff_map.mp holds.2.1
  have whole := reads_iff_map.mp held.2.1
  rw [splitlines_append holds.1, List.map_append, front] at whole
  have lengths := congrArg List.length whole
  simp only [List.length_append, List.length_map] at lengths
  refine ⟨later.drop records.length, ?_⟩
  apply List.map_injective_iff.mpr (Option.some_injective Json)
  rw [List.map_append, List.map_drop, ← whole, List.drop_left' (List.length_map _)]

/-- What stays on the disk when `append_evidence` is cut short. -/
theorem ledger_of_visits {cut : Store}
    (visits : (appendEvidence host task arguments).Visits (serve host) store cut) :
    ∃ part, cut.files.ledger.getD [] = store.files.ledger.getD [] ++ part := by
  rcases (meets_appendEvidence arguments store).1 cut visits with
    same | ⟨plan, _, same | ⟨part, _, same⟩ | ⟨revision, _, same⟩⟩
  · exact ⟨[], by rw [same, List.append_nil]⟩
  · exact ⟨[], by rw [same, List.append_nil]; rfl⟩
  · exact ⟨part, by rw [same]; rfl⟩
  · exact ⟨recordLine host (plan.record host task arguments), by rw [same]; rfl⟩

/-- The lines that `rollback_last_evidence` writes. -/
theorem reads_flatMap (records : List Json) :
    WholeLines (records.flatMap (recordLine host)) ∧
      Reads host (splitlines (records.flatMap (recordLine host))) (records.map Json.normalize) := by
  induction records with
  | nil => exact ⟨Or.inl rfl, List.Forall₂.nil⟩
  | cons record records ih =>
      have line : WholeLines (recordLine host record) := wholeLines_recordLine [] record
      rw [List.flatMap_cons]
      constructor
      · rcases ih.1 with empty | ends
        · rw [empty, List.append_nil]
          exact line
        · refine Or.inr ?_
          rw [List.getLast?_append, ends]
          rfl
      · rw [splitlines_append line, splitlines_recordLine]
        exact List.Forall₂.cons (loadsBytes_dumps record) ih.2

/-- What stays on the disk when `rollback_last_evidence` is cut short. -/
theorem ledger_of_rollback {records : List Json} {digest : Text} {cut : Store}
    (loaded : loadEvidence host task store.files true = .ok records)
    (visits : (rollbackLastEvidence host task digest).Visits (serve host) store cut) :
    cut.files.ledger = store.files.ledger ∨
      cut.files.ledger = some (records.dropLast.flatMap (recordLine host)) := by
  rcases (meets_rollbackLastEvidence digest store).1 cut visits with
    same | ⟨prior, checked, same | same⟩
  · exact Or.inl (by rw [same])
  · exact Or.inl (by rw [same])
  · refine Or.inr ?_
    rw [checkRollback, loaded, ok_bind] at checked
    simp only [bind_eq_ok] at checked
    obtain ⟨_, _, _, _, _, _, done⟩ := checked
    cases done
    rw [same]

/-- The next append recovers exactly the recoverable files that still have the records. -/
theorem recovers_iff {kept : List Json} (ready : Ready host task arguments store)
    (there : ∀ records, Holds host task (store.files.ledger.getD []) records →
      kept.length ≤ records.length) :
    Recovers host task arguments store kept ↔
      ∃ records, Recoverable host task store.files records ∧ kept <+: records := by
  constructor
  · rintro ⟨record, final, after, ran, loaded, front⟩
    obtain ⟨records, last, recoverable, rfl⟩ := recoverable_of_recovers ran loaded
    exact ⟨records, recoverable, List.prefix_of_prefix_length_le front (List.prefix_append _ _)
      (there records recoverable.holds)⟩
  · rintro ⟨records, recoverable, front⟩
    obtain ⟨record, final, ran, loaded⟩ := recovers_of_recoverable ready recoverable
    exact ⟨record, final, _, ran, loaded, front.trans (List.prefix_append _ _)⟩

end

/-- After a crash of `append_evidence` the next one recovers a verified ledger exactly if
the files that were left are recoverable.  After a crash of `rollback_last_evidence` the
records that were to stay must also be read back as they were, once they are written
again. -/
theorem crash_recovers_iff (host : Host) (task : Text) (start : Store) (records : List Json)
    (loaded : loadEvidence host task start.files true = .ok records) (next : Arguments) (cut : Store)
    (ready : Ready host task next cut) :
    (∀ arguments, (appendEvidence host task arguments).Visits (serve host) start cut →
      (Recovers host task next cut records ↔
        ∃ found, Recoverable host task cut.files found)) ∧
    ∀ digest, (rollbackLastEvidence host task digest).Visits (serve host) start cut →
      (Recovers host task next cut records.dropLast ↔
        (∃ found, Recoverable host task cut.files found) ∧
          (cut.files.ledger = start.files.ledger ∨ ∀ record ∈ records.dropLast, record.Plain)) := by
  obtain ⟨holds, _⟩ := holds_of_load loaded
  constructor
  · intro arguments visits
    obtain ⟨part, left⟩ := ledger_of_visits visits
    have kept (found : List Json) (held : Holds host task (cut.files.ledger.getD []) found) :
        records <+: found := by
      rw [left] at held
      exact prefix_of_holds holds held
    rw [recovers_iff ready fun found held => (kept found held).length_le]
    constructor
    · rintro ⟨found, recoverable, _⟩
      exact ⟨found, recoverable⟩
    · rintro ⟨found, recoverable⟩
      exact ⟨found, recoverable, kept found recoverable.holds⟩
  · intro digest visits
    by_cases same : cut.files.ledger = start.files.ledger
    · have all (found : List Json) (held : Holds host task (cut.files.ledger.getD []) found) :
          found = records := by
        rw [same] at held
        exact held.2.1.unique holds.2.1
      have front : records.dropLast <+: records := List.dropLast_prefix records
      rw [recovers_iff ready fun found held => by rw [all found held]; exact front.length_le]
      constructor
      · rintro ⟨found, recoverable, _⟩
        exact ⟨⟨found, recoverable⟩, Or.inl same⟩
      · rintro ⟨⟨found, recoverable⟩, _⟩
        refine ⟨found, recoverable, ?_⟩
        rw [all found recoverable.holds]
        exact front
    · have rewritten := (ledger_of_rollback loaded visits).resolve_left same
      have all (found : List Json) (held : Holds host task (cut.files.ledger.getD []) found) :
          found = records.dropLast.map Json.normalize := by
        rw [rewritten] at held
        exact held.2.1.unique (reads_flatMap _).2
      rw [recovers_iff ready fun found held => by rw [all found held, List.length_map]]
      have plain (found : List Json) (held : Holds host task (cut.files.ledger.getD []) found) :
          records.dropLast <+: found ↔ ∀ record ∈ records.dropLast, record.Plain := by
        have same : records.dropLast.map Json.normalize = records.dropLast.map id ↔
            ∀ record ∈ records.dropLast, record.Plain := List.map_inj_left
        rw [List.map_id] at same
        rw [all found held, ← same]
        constructor
        · exact fun front => (front.eq_of_length (List.length_map _).symm).symm
        · intro read
          rw [read]
      constructor
      · rintro ⟨found, recoverable, front⟩
        exact ⟨⟨found, recoverable⟩, Or.inr ((plain found recoverable.holds).mp front)⟩
      · rintro ⟨⟨found, recoverable⟩, back⟩
        exact ⟨found, recoverable, (plain found recoverable.holds).mpr (back.resolve_left same)⟩

/-! ## Two crashes -/

theorem stable_observing : (observing "E-3").Stable observer "T-1" "E-3" := by
  refine ⟨?_, ?_, ?_, ?_⟩
  · decide +kernel
  · decide +kernel
  · decide +kernel
  · decide +kernel

/-- A third observation is ready wherever its identifier is new. -/
theorem ready_observing {cut : Store} (running : cut.files.state = none)
    (fresh : ∀ records, Holds observer "T-1" (cut.files.ledger.getD []) records →
      ∀ record ∈ records, record.get "id" ≠ .str "E-3") :
    Ready observer "T-1" (observing "E-3") cut where
  checked := ⟨0, by decide +kernel⟩
  allowed := by rw [running]; rfl
  named := rfl
  fresh := fresh
  stable := stable_observing
  revised := ⟨.null, rfl, by rw [Json.normalize]⟩

theorem holds_bothLines : Holds observer "T-1" bothLines [firstRecord, secondRecord] := by
  obtain ⟨reads, chained⟩ := chainLines_eq_ok.mp chain_bothLines
  exact ⟨wholeLines_recordLine _ _, reads, chained⟩

theorem tail_bothLines : tailRecord observer (some bothLines) = .ok (some secondRecord) := by
  decide +kernel

example : tailRecord observer oneRecord.ledger = .ok (some firstRecord) := by
  decide +kernel

theorem recoverable_bothLines :
    Recoverable observer "T-1" ⟨some bothLines, oneRecord.anchor, none⟩
      [firstRecord, secondRecord] := by
  refine ⟨holds_bothLines, by decide +kernel, _, anchor_oneRecord, ?_⟩
  rintro _ ⟨⟩
  refine ⟨_, 1, tail_bothLines, ?_, by decide +kernel, by decide, by decide +kernel⟩
  rw [if_neg (by decide +kernel)]
  refine ⟨_, rfl, by decide +kernel, ?_⟩
  intro same
  exact absurd same (by decide +kernel)

/-- The second observation is on the disk but not in the anchor: the third one recovers
it. -/
theorem crash_recovers_second : ∃ cut,
    (appendEvidence observer "T-1" (observing "E-2")).Visits (serve observer) ⟨oneRecord, 0⟩ cut ∧
      cut.files = ⟨some bothLines, oneRecord.anchor, none⟩ ∧
      Recovers observer "T-1" (observing "E-3") cut [firstRecord] := by
  obtain ⟨cut, visits, files⟩ := visits_appendEvidence plan_second (List.prefix_refl _)
  have is : cut.files = ⟨some bothLines, oneRecord.anchor, none⟩ := files
  have ready : Ready observer "T-1" (observing "E-3") cut := by
    refine ready_observing (by rw [is]) ?_
    rw [is]
    intro records holds
    rw [holds.2.1.unique holds_bothLines.2.1]
    decide +kernel
  refine ⟨cut, visits, is, ?_⟩
  refine ((crash_recovers_iff observer "T-1" ⟨oneRecord, 0⟩ [firstRecord] load_oneRecord
    (observing "E-3") cut ready).1 (observing "E-2") visits).mpr ⟨[firstRecord, secondRecord], ?_⟩
  rw [is]
  exact recoverable_bothLines

/-- What is written for the first observation of a task. -/
def firstPlan : Plan where
  repaired := none
  epoch := 0
  previous := .null
  count := 0
  id := "E-1"
  time := "2026-01-01T00:00:00+00:00"

example : firstPlan.record observer "T-1" (observing "E-1") = firstRecord := by
  decide +kernel

theorem plan_first : appendPlan observer "T-1" (observing "E-1") ⟨⟨none, none, none⟩, 0⟩ =
    .ok firstPlan := by
  decide +kernel

theorem take_firstLine :
    (recordLine observer (firstPlan.record observer "T-1" (observing "E-1"))).take 1 = [123] := by
  decide +kernel

/-- One byte of the first record is on the disk: no append gets past it. -/
theorem brokenLine_not_recovers :
    ¬ ∀ (host : Host) (task : Text) (start : Store) (records : List Json),
      loadEvidence host task start.files true = .ok records →
      ∀ (arguments next : Arguments) (cut : Store),
        (appendEvidence host task arguments).Visits (serve host) start cut →
        Ready host task next cut → Recovers host task next cut records := by
  intro recovers
  obtain ⟨cut, visits, files⟩ := visits_appendEvidence plan_first (List.take_prefix 1 _)
  rw [take_firstLine] at files
  have is : cut.files = ⟨some [123], none, none⟩ := files
  have broken (records : List Json) :
      ¬ Holds observer "T-1" (cut.files.ledger.getD []) records := by
    rintro ⟨whole, -⟩
    rw [is] at whole
    exact absurd whole (by decide)
  have ready : Ready observer "T-1" (observing "E-3") cut :=
    ready_observing (by rw [is]) fun records holds => absurd holds (broken records)
  obtain ⟨record, final, after, ran, loaded, _⟩ := recovers observer "T-1"
    ⟨⟨none, none, none⟩, 0⟩ [] (loadEvidence_none.mpr ⟨rfl, none, rfl, rfl⟩) (observing "E-1")
    (observing "E-3") cut visits ready
  obtain ⟨records, _, recoverable, _⟩ := recoverable_of_recovers ran loaded
  exact broken records recoverable.holds

end Evidence

end CarbonLab.Aegis
