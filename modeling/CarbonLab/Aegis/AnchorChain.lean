import CarbonLab.Aegis.TaskFacts

/-!
# The chain of anchors

Every save adds an anchor to the history of its task.  A load walks the history from the
revision at which it starts and asks that it ends at the current anchor; what a save must
find for this to succeed is that the history before it leads to the anchor it continues.
-/

namespace CarbonLab.Aegis

/-! ## Lists -/

section

variable {α β : Type}

/-- Items that are read in another order give the results in another order. -/
theorem mapM_perm {read : α → Except Raised β} {items others : List α} {results : List β}
    (perm : others.Perm items) (done : items.mapM read = .ok results) :
    ∃ reordered, others.mapM read = .ok reordered ∧ reordered.Perm results := by
  obtain ⟨reordered, reads, perm⟩ := List.perm_comp_forall₂ perm (mapM_eq_ok.mp done)
  exact ⟨reordered, mapM_eq_ok.mpr reads, perm⟩

theorem mapM_append_singleton {read : α → Except Raised β} {items : List α} {last : α}
    {results : List β} : (items ++ [last]).mapM read = .ok results ↔
      ∃ earlier result, items.mapM read = .ok earlier ∧ read last = .ok result ∧
        results = earlier ++ [result] := by
  rw [List.mapM_append]
  simp only [bind_eq_ok, List.mapM_cons, List.mapM_nil]
  constructor
  · rintro ⟨earlier, done, _, ⟨result, here, _, missing, one⟩, all⟩
    cases missing
    cases one
    cases all
    exact ⟨earlier, result, done, here, rfl⟩
  · rintro ⟨earlier, result, done, here, rfl⟩
    exact ⟨earlier, done, [result], ⟨result, here, [], rfl, rfl⟩, rfl⟩

end

namespace StateStore

variable {host : Host} {id : Text}

/-! ## Sorting by revision -/

theorem perm_byName (entries : List (Text × Option Bytes)) : (byName entries).Perm entries :=
  List.perm_insertionSort _ _

theorem perm_byRevision (anchors : List (ℤ × Json)) : (byRevision anchors).Perm anchors :=
  List.perm_insertionSort _ _

theorem pairwise_byRevision (anchors : List (ℤ × Json)) :
    (byRevision anchors).Pairwise fun first second => first.1 ≤ second.1 := by
  have : Std.Total fun first second : ℤ × Json => first.1 ≤ second.1 :=
    ⟨fun first second => le_total first.1 second.1⟩
  have : IsTrans (ℤ × Json) fun first second => first.1 ≤ second.1 :=
    ⟨fun _ _ _ => le_trans⟩
  exact List.pairwise_insertionSort _ anchors

/-- Anchors with revisions in strict order stand in the order of their revisions. -/
theorem byRevision_eq {anchors sorted : List (ℤ × Json)} (perm : sorted.Perm anchors)
    (strict : (sorted.map (·.1)).Pairwise (· < ·)) : byRevision anchors = sorted := by
  have nodup : ((byRevision anchors).map (·.1)).Nodup := by
    have : (sorted.map (·.1)).Nodup := strict.imp ne_of_lt
    exact ((((perm_byRevision anchors).trans perm.symm).map _).nodup_iff).mpr this
  have left : (byRevision anchors).Pairwise fun first second => first.1 < second.1 := by
    rw [List.Nodup, List.pairwise_map] at nodup
    exact (pairwise_byRevision anchors).imp₂ (fun _ _ => lt_of_le_of_ne) nodup
  have right : sorted.Pairwise fun first second => first.1 < second.1 := List.pairwise_map.mp strict
  exact List.Perm.eq_of_pairwise (fun _ _ _ _ before after => absurd before after.asymm)
    left right ((perm_byRevision anchors).trans perm.symm)

/-! ## Ranges -/

theorem length_range (start stop : ℤ) : (range start stop).length = (stop - start).toNat := by
  simp [range]

theorem pairwise_range (start stop : ℤ) : (range start stop).Pairwise (· < ·) := by
  refine List.pairwise_map.mpr (List.pairwise_lt_range.imp ?_)
  intro first second before
  omega

theorem range_succ {start stop : ℤ} (le : start ≤ stop) :
    range start (stop + 1) = range start stop ++ [stop] := by
  have count : (stop + 1 - start).toNat = (stop - start).toNat + 1 := by omega
  rw [range, range, count, List.range_succ, List.map_append, List.map_singleton]
  congr
  omega

theorem mem_range {start stop revision : ℤ} :
    revision ∈ range start stop ↔ start ≤ revision ∧ revision < stop := by
  simp only [range, List.mem_map, List.mem_range]
  constructor
  · rintro ⟨offset, bound, rfl⟩
    omega
  · rintro ⟨low, high⟩
    exact ⟨(revision - start).toNat, by omega, by omega⟩

/-! ## Links -/

/-- A chain with one more anchor. -/
theorem chained_append {anchors : List (ℤ × Json)} {next : ℤ × Json} (filled : anchors ≠ []) :
    chained (anchors ++ [next]) = true ↔ chained anchors = true ∧
      anchors.getLast?.any (fun last =>
        (next.2.get "previous_anchor_sha256").equal (last.2.get "anchor_sha256")) = true := by
  induction anchors with
  | nil => exact absurd rfl filled
  | cons first anchors ih =>
      cases anchors with
      | nil => simp [chained]
      | cons second anchors =>
          have rest := ih (List.cons_ne_nil _ _)
          simp only [List.cons_append] at rest
          simp only [List.cons_append, chained, Bool.and_eq_true, List.getLast?_cons_cons]
          rw [rest, and_assoc]

/-! ## What a load asks of the anchors -/

theorem validateAnchors_eq_ok {anchors : List (ℤ × Json)} {current : Json} :
    validateAnchors host anchors current = .ok () ↔ (anchors.map (·.1)).Nodup ∧
      ∃ origin, originOf current ((anchors.map (·.1)).headD 0) = .ok origin ∧
        ∃ last, host.int (current.getD "revision" (.int (-1))) = .ok last ∧
          anchors.map (·.1) = range origin (last + 1) ∧ chained anchors = true ∧
          anchors.getLast?.any (fun anchor =>
            (anchor.2.get "anchor_sha256").equal (current.get "anchor_sha256")) = true := by
  simp only [validateAnchors, bind_eq_ok, require_eq_ok, exists_const]

theorem validateAnchorHistory_some {entries : List (Text × Option Bytes)} {current : Json}
    (filled : entries ≠ []) : validateAnchorHistory host id (some entries) current = .ok () ↔
      ∃ anchors, (byName entries).mapM (readEntry host id) = .ok anchors ∧
        validateAnchors host (byRevision anchors) current = .ok () := by
  cases entries with
  | nil => exact absurd rfl filled
  | cons entry entries => simp only [validateAnchorHistory, bind_eq_ok]

/-- What a load asks of the current anchor itself. -/
structure Intact (host : Host) (id : Text) (anchor : Json) : Prop where
  object : anchor.obj?.isSome = true
  schema : inNumbers (anchor.get "schema") [1, 2] = .ok true
  task : (anchor.get "task_id").equal (.str id) = true
  digest : (anchor.get "anchor_sha256").equal (.str (anchorDigest host anchor)) = true
  origin : (anchor.get "schema").equal (.int 2) = true →
    ∃ origin, (anchor.get "history_origin_revision").int? = some origin ∧ 0 ≤ origin ∧
      ∃ revision, host.int (anchor.getD "revision" (.int (-1))) = .ok revision ∧ origin ≤ revision

theorem loadAnchor_eq_some {disk : TaskDisk} {required : Bool} {anchor : Json} :
    loadAnchor host id disk required = .ok (some anchor) ↔
      ∃ bytes, disk.anchor = some bytes ∧ readJson host.floats bytes = some anchor ∧
        Intact host id anchor ∧
        validateAnchorHistory host id disk.history anchor = .ok () := by
  rw [loadAnchor]
  cases disk.anchor with
  | none => simp [bind_eq_ok, pure, Except.pure]
  | some bytes =>
      simp only [Option.some.injEq, exists_eq_left']
      cases readJson host.floats bytes with
      | none => simp
      | some read =>
          simp only [Option.some.injEq, bind_eq_ok, require_eq_ok, exists_const]
          constructor
          · rintro ⟨object, _, schema, rfl, task, digest, rest⟩
            split at rest
            · split at rest
              · cases rest
              · next origin is =>
                  simp only [bind_eq_ok, require_eq_ok, exists_const] at rest
                  obtain ⟨low, revision, reads, high, _, valid, done⟩ := rest
                  cases done
                  exact ⟨rfl, ⟨object, schema, task, digest,
                    fun _ => ⟨origin, is, low, revision, reads, high⟩⟩, valid⟩
            · next old =>
                obtain ⟨_, valid, done⟩ := bind_eq_ok.mp rest
                cases done
                exact ⟨rfl, ⟨object, schema, task, digest, fun new => absurd new old⟩, valid⟩
          · rintro ⟨rfl, intact, valid⟩
            refine ⟨intact.object, true, intact.schema, rfl, intact.task, intact.digest, ?_⟩
            split
            · next new =>
                obtain ⟨origin, is, low, revision, reads, high⟩ := intact.origin new
                simp only [is, bind_eq_ok, require_eq_ok, exists_const]
                exact ⟨low, revision, reads, high, (), valid, rfl⟩
            · exact bind_eq_ok.mpr ⟨(), valid, rfl⟩

/-! ## One more anchor -/

/-- The history of an anchor starts here. -/
def originValue (anchor : Json) : Json :=
  anchor.getD "history_origin_revision" (anchor.getD "revision" (.int 0))

/-- The entries of a history lead from the origin of an anchor to it, up to a revision. -/
def Rooted (host : Host) (id : Text) (entries : List (Text × Option Bytes)) (anchor : Json)
    (revision : ℤ) : Prop :=
  ∃ origin anchors, (originValue anchor).int? = some origin ∧ 0 ≤ origin ∧
    (byName entries).mapM (readEntry host id) = .ok anchors ∧
    (byRevision anchors).map (·.1) = range origin (revision + 1) ∧
    chained (byRevision anchors) = true ∧
    (byRevision anchors).getLast?.any (fun last =>
      (last.2.get "anchor_sha256").equal (anchor.get "anchor_sha256")) = true

section

variable {entries : List (Text × Option Bytes)} {entry : Text × Option Bytes}
  {all earlier : List (ℤ × Json)} {next : ℤ × Json}

theorem perm_byName_append :
    (byName entries ++ [entry]).Perm (byName (entries ++ [entry])) :=
  ((perm_byName entries).append_right [entry]).trans (perm_byName _).symm

/-- The anchors of a history with one more entry. -/
theorem earlier_of_mapM (reads : readEntry host id entry = .ok next)
    (done : (byName (entries ++ [entry])).mapM (readEntry host id) = .ok all) :
    ∃ earlier, (byName entries).mapM (readEntry host id) = .ok earlier ∧
      (earlier ++ [next]).Perm all := by
  obtain ⟨reordered, reordering, perm⟩ := mapM_perm perm_byName_append done
  obtain ⟨earlier, result, before, here, rfl⟩ := mapM_append_singleton.mp reordering
  rw [reads] at here
  cases here
  exact ⟨earlier, before, perm⟩

theorem mapM_of_earlier (reads : readEntry host id entry = .ok next)
    (done : (byName entries).mapM (readEntry host id) = .ok earlier) :
    ∃ all, (byName (entries ++ [entry])).mapM (readEntry host id) = .ok all ∧
      (earlier ++ [next]).Perm all := by
  obtain ⟨all, done, perm⟩ := mapM_perm perm_byName_append.symm
    (mapM_append_singleton.mpr ⟨earlier, next, done, reads, rfl⟩)
  exact ⟨all, done, perm.symm⟩

theorem byRevision_ne_nil (filled : entries ≠ [])
    (done : (byName entries).mapM (readEntry host id) = .ok earlier) : byRevision earlier ≠ [] := by
  intro empty
  have count := (mapM_eq_ok.mp done).length_eq
  rw [(perm_byName entries).length_eq, ← (perm_byRevision earlier).length_eq, empty] at count
  exact filled (List.length_eq_zero_iff.mp count)

theorem high_of_revisions {origin revision : ℤ} (filled : entries ≠ [])
    (done : (byName entries).mapM (readEntry host id) = .ok earlier)
    (revisions : (byRevision earlier).map (·.1) = range origin (revision + 1)) :
    origin ≤ revision + 1 := by
  by_contra above
  have count := congrArg List.length revisions
  rw [List.length_map, length_range] at count
  have zero : (revision + 1 - origin).toNat = 0 := by omega
  exact byRevision_ne_nil filled done (List.length_eq_zero_iff.mp (count.trans zero))

/-- A next anchor stands behind the anchors up to its revision. -/
theorem byRevision_append {origin revision : ℤ} (perm : (earlier ++ [next]).Perm all)
    (follows : next.1 = revision + 1) (le : origin ≤ revision + 1)
    (revisions : (byRevision earlier).map (·.1) = range origin (revision + 1)) :
    byRevision all = byRevision earlier ++ [next] := by
  refine byRevision_eq (((perm_byRevision earlier).append_right [next]).trans perm) ?_
  rw [List.map_append, revisions, List.map_singleton, follows, ← range_succ le]
  exact pairwise_range _ _

/-- Without the next anchor, the anchors up to its revision are left. -/
theorem byRevision_earlier {origin revision : ℤ} (perm : (earlier ++ [next]).Perm all)
    (follows : next.1 = revision + 1) (le : origin ≤ revision + 1)
    (revisions : (byRevision all).map (·.1) = range origin (revision + 2)) :
    (byRevision earlier).map (·.1) = range origin (revision + 1) := by
  have split_ : range origin (revision + 2) = range origin (revision + 1) ++ [revision + 1] := by
    rw [← range_succ le]
    congr 1
    omega
  rw [split_] at revisions
  obtain ⟨before, rest, is, lefts, rights⟩ := List.map_eq_append_iff.mp revisions
  obtain ⟨last, rfl, lastIs⟩ := List.map_eq_singleton_iff.mp rights
  have member : next ∈ before ++ [last] := by
    rw [← is]
    exact (perm_byRevision all).mem_iff.mpr (perm.mem_iff.mp (by simp))
  have lastNext : last = next := by
    rcases List.mem_append.mp member with early | late
    · have bound := List.mem_map_of_mem (f := fun anchor : ℤ × Json => anchor.1) early
      rw [lefts, mem_range] at bound
      omega
    · exact (List.mem_singleton.mp late).symm
  subst lastNext
  have rest : before.Perm earlier := by
    rw [← List.perm_append_right_iff [last], ← is]
    exact (perm_byRevision all).trans perm.symm
  rw [byRevision_eq rest (lefts ▸ pairwise_range _ _), lefts]

end

/-! ## The anchor of a save -/

section

variable {task : Json} {previous : Option Json}

theorem unsealed_anchorFields : Unsealed "anchor_sha256" (anchorFields task previous) := by
  simp [Unsealed, anchorFields]

theorem anchorDigest_newAnchor :
    (newAnchor host task previous).get "anchor_sha256" =
      .str (anchorDigest host (newAnchor host task previous)) := by
  rw [anchorDigest, newAnchor, unsealed_anchorFields.erase]
  exact get_sealed_self

theorem schema_newAnchor : (newAnchor host task previous).get "schema" = .int 2 :=
  get_sealed (by simp)

theorem get?_newAnchor {key : Text} (differs : text "anchor_sha256" ≠ key) :
    (newAnchor host task previous).get? key =
      (Json.obj (Fields.ofPairs (anchorFields task previous))).get? key :=
  Json.get?_obj_set.trans (if_neg differs)

/-- An anchor whose origin is a number is read back as it was. -/
theorem plain_newAnchor {origin : ℤ} {prior : Json} {digest : Text}
    (id_ : (task.get "id").Plain) (revision : (task.get "revision").Plain)
    (state : (task.get "integrity_sha256").Plain)
    (priorDigest : prior.get "anchor_sha256" = .str digest) (digestPlain : (Json.str digest).Plain)
    (originIs : (originValue prior).int? = some origin) :
    (newAnchor host task (some prior)).Plain := by
  refine unsealed_anchorFields.plain.mpr (Json.plain_ofPairs ?_)
  have originPlain : (originValue prior).Plain := by
    cases is : originValue prior with
    | int value => exact Json.plain_int _
    | bool value => exact Json.plain_bool _
    | _ =>
        rw [is] at originIs
        cases originIs
  simp only [anchorFields, List.forall_mem_cons, mergeSurrogates_text, true_and, Option.map_some,
    Option.getD_some, priorDigest]
  exact ⟨Json.plain_int 2, id_, revision, state, digestPlain, originPlain, by simp⟩

end

theorem readJson_fileText {value : Json} (plain : value.Plain) :
    readJson host.floats (fileText host value) = some value := by
  rw [fileText, readJson_jsonLine, plain]

theorem hasJsonSuffix_historyName (revision : ℤ) {digest : Text} (long : digest.length = 64) :
    hasJsonSuffix (historyName revision digest) = true := by
  rw [hasJsonSuffix, Bool.and_eq_true, decide_eq_true_eq, List.isSuffixOf_iff_suffix]
  refine ⟨?_, List.suffix_append _ _⟩
  simp only [historyName, List.length_append, long]
  omega

/-- A task that is stored one revision after an anchor. -/
structure Follows (id : Text) (task prior : Json) (revision : ℤ) : Prop where
  id_ : task.get "id" = .str id
  idPlain : (Json.str id).Plain
  revision_ : task.get "revision" = .int (revision + 1)
  low : 0 ≤ revision + 1
  state : (task.get "integrity_sha256").Plain
  digest : ∃ digest, prior.get "anchor_sha256" = .str digest ∧ (Json.str digest).Plain

namespace Follows

variable {task prior : Json} {revision origin : ℤ}

theorem plain (follows : Follows id task prior revision)
    (originIs : (originValue prior).int? = some origin) :
    (newAnchor host task (some prior)).Plain := by
  obtain ⟨digest, digestIs, digestPlain⟩ := follows.digest
  refine plain_newAnchor ?_ ?_ follows.state digestIs digestPlain originIs
  · rw [follows.id_]
    exact follows.idPlain
  · rw [follows.revision_]
    exact Json.plain_int _

theorem getTask (follows : Follows id task prior revision) :
    (newAnchor host task (some prior)).get "task_id" = .str id :=
  (get_sealed (by simp)).trans follows.id_

theorem getRevision (follows : Follows id task prior revision) :
    (newAnchor host task (some prior)).get "revision" = .int (revision + 1) :=
  (get_sealed (by simp)).trans follows.revision_

theorem historyPath (follows : Follows id task prior revision) {name : Text}
    (path : StateStore.historyPath (newAnchor host task (some prior)) = .ok name) :
    name = historyName (revision + 1) (anchorDigest host (newAnchor host task (some prior))) := by
  rw [StateStore.historyPath, follows.getRevision, anchorDigest_newAnchor] at path
  simp only [Json.int?, Json.str?, bind_eq_ok, require_eq_ok, exists_const] at path
  exact (Except.ok.inj path.2).symm

/-- The new entry of the history is read as the new anchor. -/
theorem readEntry (follows : Follows id task prior revision)
    (originIs : (originValue prior).int? = some origin) :
    readEntry host id (historyName (revision + 1)
        (anchorDigest host (newAnchor host task (some prior))),
      some (fileText host (newAnchor host task (some prior)))) =
      .ok (revision + 1, newAnchor host task (some prior)) := by
  have schema : inNumbers ((newAnchor host task (some prior)).get "schema") [1, 2] = .ok true := by
    rw [schema_newAnchor]
    rfl
  have long : (anchorDigest host (newAnchor host task (some prior))).length = 64 :=
    Host.digest_length _
  rw [StateStore.readEntry]
  simp only [readJson_fileText (follows.plain originIs), bind_eq_ok, require_eq_ok, exists_const]
  refine ⟨hasJsonSuffix_historyName _ long, rfl, true, schema, rfl, ?_, ?_⟩
  · rw [follows.getTask]
    exact Json.equal_str.mpr rfl
  · rw [follows.getRevision, anchorDigest_newAnchor]
    simp only [Json.int?, Json.str?, bind_eq_ok, require_eq_ok, exists_const]
    exact ⟨⟨follows.low, long, trivial, trivial⟩, rfl⟩

theorem originOf_ (first : ℤ) (originIs : (originValue prior).int? = some origin) :
    originOf (newAnchor host task (some prior)) first = .ok origin := by
  have found : (newAnchor host task (some prior)).get? "history_origin_revision" =
      some (originValue prior) := get?_newAnchor (by simp)
  rw [originOf, Json.getD, found, Option.getD_some, originIs]

theorem int_ (follows : Follows id task prior revision) :
    host.int ((newAnchor host task (some prior)).getD "revision" (.int (-1))) =
      .ok (revision + 1) := by
  have found : (newAnchor host task (some prior)).get? "revision" =
      some (task.get "revision") := get?_newAnchor (by simp)
  rw [Json.getD, found, Option.getD_some, follows.revision_]
  rfl

/-- The anchor of a save itself is intact when its history has an origin. -/
theorem intact (follows : Follows id task prior revision)
    (originIs : (originValue prior).int? = some origin) (low : 0 ≤ origin)
    (high : origin ≤ revision + 1) : Intact host id (newAnchor host task (some prior)) where
  object := rfl
  schema := by
    rw [schema_newAnchor]
    rfl
  task := by
    rw [follows.getTask]
    exact Json.equal_str.mpr rfl
  digest := Json.equal_str.mpr anchorDigest_newAnchor
  origin _ := by
    have found : (newAnchor host task (some prior)).get "history_origin_revision" =
      originValue prior := get_sealed (by simp)
    exact ⟨origin, found ▸ originIs, low, revision + 1, follows.int_, high⟩

/-- What a load asks of the history after a save, in terms of the history before it. -/
theorem validateAnchorHistory (follows : Follows id task prior revision)
    {entries : List (Text × Option Bytes)} {name : Text} (filled : entries ≠ [])
    (path : StateStore.historyPath (newAnchor host task (some prior)) = .ok name)
    (originIs : (originValue prior).int? = some origin) (low : 0 ≤ origin)
    (high : origin ≤ revision + 1) :
    validateAnchorHistory host id
        (some (entries ++ [(name, some (fileText host (newAnchor host task (some prior))))]))
        (newAnchor host task (some prior)) = .ok () ↔ Rooted host id entries prior revision := by
  have reads := @readEntry host id task prior revision origin follows originIs
  rw [← follows.historyPath path] at reads
  obtain ⟨digest, digestIs, _⟩ := follows.digest
  have previous : (newAnchor host task (some prior)).get "previous_anchor_sha256" =
      prior.get "anchor_sha256" := get_sealed (by simp)
  rw [validateAnchorHistory_some (by simp)]
  constructor
  · rintro ⟨all, done, valid⟩
    obtain ⟨nodup, start, startIs, last, lastIs, revisions, links, _⟩ :=
      validateAnchors_eq_ok.mp valid
    rw [originOf_ _ originIs] at startIs
    rw [follows.int_] at lastIs
    cases startIs
    cases lastIs
    obtain ⟨earlier, before, perm⟩ := earlier_of_mapM reads done
    have revisions' := byRevision_earlier perm rfl high (revisions.trans (by congr 1; omega))
    rw [byRevision_append perm rfl high revisions', chained_append (byRevision_ne_nil filled before),
      previous, digestIs] at links
    simp only [Json.str_equal_comm] at links
    exact ⟨origin, earlier, originIs, low, before, revisions', links.1, digestIs ▸ links.2⟩
  · rintro ⟨start, earlier, startIs, _, before, revisions, links, last⟩
    rw [originIs] at startIs
    cases startIs
    obtain ⟨all, done, perm⟩ := mapM_of_earlier reads before
    have sorted := byRevision_append perm rfl high revisions
    have allRevisions : (byRevision all).map (·.1) = range origin (revision + 1 + 1) := by
      rw [sorted, List.map_append, revisions, range_succ high, List.map_singleton]
    refine ⟨all, done, validateAnchors_eq_ok.mpr ⟨?_, origin, originOf_ _ originIs, revision + 1,
      follows.int_, allRevisions, ?_, ?_⟩⟩
    · rw [allRevisions]
      exact (pairwise_range _ _).imp ne_of_lt
    · rw [sorted, chained_append (byRevision_ne_nil filled before), previous, digestIs]
      simp only [Json.str_equal_comm]
      exact ⟨links, digestIs ▸ last⟩
    · rw [sorted, List.getLast?_append, List.getLast?_singleton, Option.some_or, Option.any_some,
        anchorDigest_newAnchor]
      exact Json.equal_str.mpr rfl

/-- The anchor of a save is accepted exactly when the history before it leads to the anchor
that it continues. -/
theorem loadAnchor (follows : Follows id task prior revision) {disk : TaskDisk}
    {entries : List (Text × Option Bytes)} {name : Text} (filled : entries ≠ [])
    (path : StateStore.historyPath (newAnchor host task (some prior)) = .ok name)
    (anchorIs : disk.anchor = some (fileText host (newAnchor host task (some prior))))
    (historyIs : disk.history =
      some (entries ++ [(name, some (fileText host (newAnchor host task (some prior))))]))
    {required : Bool} {found : Json} :
    loadAnchor host id disk required = .ok (some found) ↔
      found = newAnchor host task (some prior) ∧ Rooted host id entries prior revision := by
  rw [loadAnchor_eq_some, anchorIs, historyIs]
  constructor
  · rintro ⟨bytes, same, reads, intact, valid⟩
    cases same
    rw [fileText, readJson_jsonLine, Option.some.injEq] at reads
    have fields := @Unsealed.get?_normalize host _ _ (@unsealed_anchorFields task (some prior))
    -- An anchor with an origin that is no number is rejected, so it is read back as it was.
    obtain ⟨origin, originIs, low, last, lastIs, high⟩ := intact.origin (by
      rw [← reads, Json.get, Json.getD, newAnchor, fields, if_neg (by simp)]
      rfl)
    have origin' : (originValue prior).int? = some origin := by
      rw [← reads, Json.get, Json.getD, newAnchor, fields, if_neg (by simp)] at originIs
      exact (Json.int?_normalize _).symm.trans originIs
    have plain : (newAnchor host task (some prior)).Plain := follows.plain origin'
    rw [plain] at reads
    subst reads
    rw [follows.int_] at lastIs
    cases lastIs
    exact ⟨rfl, (follows.validateAnchorHistory filled path origin' low high).mp valid⟩
  · rintro ⟨rfl, origin, anchors, originIs, low, before, revisions, rest⟩
    have high := high_of_revisions filled before revisions
    refine ⟨_, rfl, readJson_fileText (follows.plain originIs), follows.intact originIs low high, ?_⟩
    exact (follows.validateAnchorHistory filled path originIs low high).mpr
      ⟨origin, anchors, originIs, low, before, revisions, rest⟩

/-- The history after a save leads to its anchor. -/
theorem rooted (follows : Follows id task prior revision)
    {entries : List (Text × Option Bytes)} {name : Text} (filled : entries ≠ [])
    (path : StateStore.historyPath (newAnchor host task (some prior)) = .ok name)
    (before : Rooted host id entries prior revision) :
    Rooted host id (entries ++ [(name, some (fileText host (newAnchor host task (some prior))))])
      (newAnchor host task (some prior)) (revision + 1) := by
  obtain ⟨origin, earlier, originIs, low, done, revisions, links, last⟩ := before
  have high := high_of_revisions filled done revisions
  have found : (newAnchor host task (some prior)).get? "history_origin_revision" =
      some (originValue prior) := get?_newAnchor (by simp)
  have same : originValue (newAnchor host task (some prior)) = originValue prior := by
    rw [originValue, Json.getD, found, Option.getD_some]
  have valid := (follows.validateAnchorHistory filled path originIs low high).mpr
    ⟨origin, earlier, originIs, low, done, revisions, links, last⟩
  obtain ⟨all, reads, valid⟩ := (validateAnchorHistory_some (by simp)).mp valid
  obtain ⟨_, start, startIs, final, finalIs, allRevisions, allLinks, allLast⟩ :=
    validateAnchors_eq_ok.mp valid
  rw [originOf_ _ originIs] at startIs
  rw [follows.int_] at finalIs
  cases startIs
  cases finalIs
  exact ⟨origin, all, same ▸ originIs, low, reads, allRevisions, allLinks, allLast⟩

end Follows

end StateStore

end CarbonLab.Aegis
