import CarbonLab.Aegis.Transaction
import CarbonLab.Aegis.ManifestCodec

/-!
# The journal of a transaction

What a transaction writes into its journal a recovery reads back as the plan of that
transaction: the same destinations, with the bytes that stood there.
-/

namespace CarbonLab.Aegis

open FileProgram

/-! ## Paths -/

/-- Names that a resolved path has: no slashes, no dots alone. -/
def PlainNames (path : Path) : Prop :=
  ∀ name ∈ path, name ≠ [] ∧ code '/' ∉ name ∧ name ≠ text "." ∧ name ≠ text ".."

theorem PlainNames.tail {name : Text} {path : Path} (named : PlainNames (name :: path)) :
    PlainNames path :=
  fun other member => named other (List.mem_cons_of_mem _ member)

/-- The parts of a path that was joined are its names. -/
theorem PlainNames.parts {path : Path} (named : PlainNames path) :
    pathParts (joinParts path) = path :=
  pathParts_joinParts fun name member =>
    ⟨(named name member).1, (named name member).2.2.1, (named name member).2.1⟩

theorem joinParts_injective {first second : Path} (left : PlainNames first)
    (right : PlainNames second) (same : joinParts first = joinParts second) : first = second := by
  rw [← left.parts, same, right.parts]

/-- A joined path is relative. -/
theorem head?_joinParts {path : Path} (named : PlainNames path) :
    (joinParts path).head? ≠ some (code '/') := by
  cases path with
  | nil => simp [joinParts]
  | cons name path =>
      obtain ⟨filled, plain, _⟩ := named name List.mem_cons_self
      obtain ⟨first, rest, rfl⟩ := List.exists_cons_of_ne_nil filled
      have slash : first ≠ code '/' := fun same => plain (same ▸ List.mem_cons_self)
      cases path with
      | nil => simpa [joinParts] using slash
      | cons next path =>
          rw [joinParts, List.intercalate_cons_cons]
          simpa using slash

theorem isHigh_of_encodable {name : Text} (encodes : encodable name = true) :
    ∀ letter ∈ name, isHigh letter = false := by
  intro letter member
  have within := List.all_eq_true.mp encodes letter member
  simp only [isHigh, Bool.and_eq_true, Bool.or_eq_true, decide_eq_true_eq,
    Bool.and_eq_false_iff, decide_eq_false_iff_not] at within ⊢
  omega

/-- The letters of a joined path are slashes and letters of its names. -/
theorem forall_mem_joinParts {holds : CodePoint → Prop} {path : Path} (slash : holds (code '/'))
    (names : ∀ name ∈ path, ∀ letter ∈ name, holds letter) :
    ∀ letter ∈ joinParts path, holds letter := by
  induction path with
  | nil => simp [joinParts]
  | cons name path ih =>
      obtain ⟨here, later⟩ := List.forall_mem_cons.mp names
      cases path with
      | nil => rwa [joinParts, List.intercalate_singleton]
      | cons next path =>
          rw [joinParts, List.intercalate_cons_cons, List.forall_mem_append,
            List.forall_mem_append]
          exact ⟨⟨here, by simpa using slash⟩, ih later⟩

/-! ## Digests -/

/-- The decimal digits of ASCII are digits. -/
def Host.ReadsDigits (host : Host) : Prop :=
  ∀ letter, 48 ≤ letter.val → letter.val ≤ 57 → (host.decimal letter).isSome

/-- A lower case hexadecimal digit. -/
def IsHex (letter : CodePoint) : Prop :=
  48 ≤ letter.val ∧ letter.val ≤ 57 ∨ 97 ≤ letter.val ∧ letter.val ≤ 102

theorem isHex_of_mem {letter : CodePoint} (member : letter ∈ text "0123456789abcdef") :
    IsHex letter := by
  have all : (text "0123456789abcdef").all (fun letter => (48 ≤ letter.val && letter.val ≤ 57) ||
      (97 ≤ letter.val && letter.val ≤ 102)) = true := by decide +kernel
  simpa [IsHex] using List.all_eq_true.mp all letter member

theorem IsHex.ne {letter : CodePoint} (hex : IsHex letter) {other : Char}
    (apart : ¬ IsHex (code other)) : letter ≠ code other :=
  fun same => apart (same ▸ hex)

theorem IsHex.not_space {letter : CodePoint} (hex : IsHex letter) : isSpace letter = false := by
  unfold IsHex at hex
  simp only [isSpace, Bool.or_eq_false_iff, Bool.and_eq_false_iff, decide_eq_false_iff_not]
  omega

section

variable {host : Host}

theorem isBase16Number_of_hex (reads : host.ReadsDigits) {digits : Text} (filled : digits ≠ [])
    (hex : ∀ letter ∈ digits, IsHex letter) : host.isBase16Number digits = true := by
  have digit (letter : CodePoint) (hex : IsHex letter) : host.isBase16Digit letter = true := by
    rcases hex with ⟨low, high⟩ | ⟨low, high⟩
    · simp [Host.isBase16Digit, reads letter low high]
    · simp [Host.isBase16Digit, low, high]
  induction digits with
  | nil => exact absurd rfl filled
  | cons first rest ih =>
      obtain ⟨here, later⟩ := List.forall_mem_cons.mp hex
      cases rest with
      | nil => exact digit first here
      | cons second rest =>
          have under : second ≠ code '_' :=
            (later second List.mem_cons_self).ne (by simp [IsHex, code])
          rw [Host.isBase16Number, if_neg under, digit first here, ih (by simp) later]
          rfl

/-- A digest that was computed is a valid one. -/
theorem validSha256_sha (reads : host.ReadsDigits) (data : Option Bytes) :
    host.validSha256 (digestJson (host.sha data)) = some (host.sha data) := by
  cases data with
  | none => rfl
  | some bytes =>
      obtain ⟨long, letters⟩ := host.sha256_hex bytes
      have hex : ∀ letter ∈ host.sha256 bytes, IsHex letter :=
        fun letter member => isHex_of_mem (letters letter member)
      have kept (digits : Text) (all : ∀ letter ∈ digits, IsHex letter) :
          digits.dropWhile isSpace = digits := by
        cases digits with
        | nil => rfl
        | cons first rest =>
            rw [List.dropWhile_cons_of_neg]
            rw [(all first List.mem_cons_self).not_space]
            exact Bool.false_ne_true
      have stripped : strip (host.sha256 bytes) = host.sha256 bytes := by
        rw [strip, kept _ hex,
          kept _ (fun letter member => hex letter (List.mem_reverse.mp member)),
          List.reverse_reverse]
      have base16 : host.isBase16 (host.sha256 bytes) = true := by
        rw [Host.isBase16, stripped]
        cases is : host.sha256 bytes with
        | nil =>
            rw [is] at long
            cases long
        | cons first rest =>
            cases rest with
            | nil =>
                rw [is] at long
                cases long
            | cons second rest =>
                rw [is] at hex
                have here := hex first (by simp)
                have next := hex second (by simp)
                have minus : first ≠ code '-' := here.ne (by simp [IsHex, code])
                have plus : first ≠ code '+' := here.ne (by simp [IsHex, code])
                have small : second ≠ code 'x' := next.ne (by simp [IsHex, code])
                have big : second ≠ code 'X' := next.ne (by simp [IsHex, code])
                simp only [minus, plus, small, big, or_self, and_false, if_false]
                exact isBase16Number_of_hex reads (by simp) hex
      have lower : (host.sha256 bytes).all (fun letter => letter.val < 65 || 90 < letter.val) =
          true := by
        rw [List.all_eq_true]
        intro letter member
        have here := hex letter member
        unfold IsHex at here
        simp only [Bool.or_eq_true, decide_eq_true_eq]
        omega
      change (if _ then _ else _) = _
      rw [if_pos ⟨long, base16, lower⟩]
      rfl

end

/-! ## Destinations -/

/-- A project whose root is a resolved path. -/
structure Project.Rooted (project : Project) : Prop where
  named : PlainNames project.root
  encodes : ∀ name ∈ project.root, encodable name = true

/-- Destinations that passed the preflight together. -/
structure Destined (prepared : List PreparedFile) : Prop where
  named : ∀ one ∈ prepared, PlainNames one.path
  writable : ∀ one ∈ prepared, Writable one.path
  distinct : (prepared.map PreparedFile.path).Nodup

theorem Destined.tail {one : PreparedFile} {prepared : List PreparedFile}
    (destined : Destined (one :: prepared)) : Destined prepared where
  named other member := destined.named other (List.mem_cons_of_mem _ member)
  writable other member := destined.writable other (List.mem_cons_of_mem _ member)
  distinct := (List.nodup_cons.mp destined.distinct).2

section

variable {project : Project} {path : Path}

/-- A relative path of plain names is confined to the project. -/
theorem confinedPath_joinParts (named : PlainNames path) (writable : Writable path) :
    project.confinedPath (joinParts path) = .ok path := by
  have relative := head?_joinParts named
  have dots : text ".." ∉ path := fun member => (named _ member).2.2.2 rfl
  have encodes : ∀ part ∈ path.dropLast, encodable part = true :=
    fun part member => writable.2.2 part (List.dropLast_subset path member)
  unfold Project.confinedPath
  simp only [named.parts, relative, bind_eq_ok, require_eq_ok, exists_const,
    false_implies, if_false]
  exact ⟨dots, encodes, trivial, writable.1, rfl⟩

/-- The root is read back from its text. -/
theorem resolve_root (rooted : project.Rooted) :
    project.resolve (project.pathText []) = .ok project.root := by
  have parts : pathParts (project.pathText []) = project.root := by
    have split : project.pathText [] = [] ++ code '/' :: joinParts project.root := by
      rw [Project.pathText, List.append_nil]
      rfl
    rw [split, pathParts_append_slash, rooted.named.parts]
    rfl
  have folds (start : Path) : ∀ names : Path, PlainNames names → names.foldl (fun path part =>
      if part = text ".." then path.dropLast else path ++ [part]) start = start ++ names := by
    intro names
    induction names generalizing start with
    | nil => simp
    | cons name names ih =>
        intro named
        have dots := (named name List.mem_cons_self).2.2.2
        rw [List.foldl_cons, if_neg dots, ih _ named.tail, List.append_assoc]
        rfl
  have slash : (project.pathText []).head? = some (code '/') := rfl
  unfold Project.resolve
  simp only [parts, bind_eq_ok, require_eq_ok, exists_const, slash, if_true]
  refine ⟨rooted.encodes, ?_⟩
  rw [folds [] project.root rooted.named]
  rfl

/-! ## What a recovery expects -/

/-- The digests that a recovery accepts for a destination. -/
def expectedHashes (project : Project) (phase : Text) (forceRollback : Bool) (one : PreparedFile) :
    List (Option Text) :=
  if phase = text "ROLLED_BACK" then [project.host.sha one.before]
  else if phase = text "COMMITTED" ∧ forceRollback = false then [project.host.sha one.data]
  else [project.host.sha one.before, project.host.sha one.data]

/-- A destination of a transaction in the plan of its recovery. -/
def PreparedFile.destination (project : Project) (phase : Text) (forceRollback : Bool)
    (one : PreparedFile) : Destination :=
  ⟨joinParts one.path, one.path, one.before, expectedHashes project phase forceRollback one,
    one.mode⟩

/-- A record is read back. -/
theorem prepareRecord_recordOf (reads : project.host.ReadsDigits) {phase : Text}
    {forceRollback : Bool} {index : ℕ} {one : PreparedFile} (named : PlainNames one.path)
    (writable : Writable one.path) :
    project.prepareRecord phase forceRollback (project.recordOf index one) (joinParts one.path) =
      .ok (one.destination project phase forceRollback) := by
  have before : Project.rollbackBytes (joinParts one.path)
      ((project.recordOf index one).get "before_base64") = .ok one.before := by
    obtain ⟨path, _ | bytes, data, mode⟩ := one
    · rfl
    · change Project.rollbackBytes _ (.str (b64encode bytes)) = _
      dsimp only [Project.rollbackBytes]
      rw [b64decode_b64encode]
  have beforeHash : (project.recordOf index one).get "before_sha256" =
      digestJson (project.host.sha one.before) := rfl
  have afterHash : (project.recordOf index one).get "after_sha256" =
      digestJson (project.host.sha one.data) := rfl
  have mode : (project.recordOf index one).get "mode" = one.mode := rfl
  have there : item (project.recordOf index one) "before_sha256" =
      .ok (digestJson (project.host.sha one.before)) := rfl
  have same : (digestJson (project.host.sha one.before)).equal
      (digestJson (project.host.sha one.before)) = true := by
    cases project.host.sha one.before with
    | none => rfl
    | some digest => exact Json.equal_str.mpr rfl
  unfold Project.prepareRecord
  rw [confinedPath_joinParts named writable, ok_bind, before, ok_bind, beforeHash, afterHash,
    require, if_pos same, ok_bind, validSha256_sha reads, mode, there]
  dsimp only
  unfold PreparedFile.destination expectedHashes
  split
  · rfl
  · split
    · rfl
    · rfl

/-- The records are read back. -/
theorem prepareRecords_recordsOf (reads : project.host.ReadsDigits) {phase : Text}
    {forceRollback : Bool} (prepared : List PreparedFile) (destined : Destined prepared) (index : ℕ)
    (seen : List Text) (fresh : ∀ one ∈ prepared, joinParts one.path ∉ seen) :
    project.prepareRecords phase forceRollback seen
        (prepared.mapIdx fun offset => project.recordOf (index + offset)) =
      .ok (prepared.map (PreparedFile.destination project phase forceRollback)) := by
  induction prepared generalizing index seen with
  | nil => rfl
  | cons one prepared ih =>
      obtain ⟨first, rest⟩ := List.nodup_cons.mp destined.distinct
      have later : ∀ other ∈ prepared, joinParts other.path ∉ joinParts one.path :: seen := by
        intro other member inside
        rcases List.mem_cons.mp inside with same | before
        · have paths := joinParts_injective
            (destined.named other (List.mem_cons_of_mem _ member))
            (destined.named one List.mem_cons_self) same
          exact first (List.mem_map.mpr ⟨other, member, paths⟩)
        · exact fresh other (List.mem_cons_of_mem _ member) before
      have shifted : (prepared.mapIdx fun offset => project.recordOf (index + (offset + 1))) =
          prepared.mapIdx fun offset => project.recordOf (index + 1 + offset) := by
        congr 1
        funext offset
        congr 1
        omega
      rw [List.mapIdx_cons, Project.prepareRecords]
      rw [show (project.recordOf (index + 0) one).get "path" = .str (joinParts one.path) from rfl]
      dsimp only
      rw [require, if_pos (fresh one List.mem_cons_self), ok_bind,
        prepareRecord_recordOf reads (destined.named one List.mem_cons_self)
          (destined.writable one List.mem_cons_self), ok_bind, shifted,
        ih destined.tail (index + 1) _ later]
      rfl

/-! ## Journals -/

/-- A journal that describes some destinations of a transaction in one phase. -/
structure Described (project : Project) (name : Text) (prepared : List PreparedFile) (phase : Text)
    (journal : Json) : Prop where
  plain : journal.Plain
  object : journal.obj?.isSome
  schema : journal.get "schema" = .int 1
  name : journal.get "name" = .str name
  root : journal.get "root" = .str (project.pathText [])
  phase : journal.get "phase" = .str phase
  records : journal.get "records" = project.recordsOf prepared

variable {name phase : Text} {prepared : List PreparedFile} {journal : Json}

/-- The fields that a recovery reads. -/
def readFields : List Text := ["schema", "name", "root", "phase", "records"]

/-- A field that a recovery does not read is written. -/
theorem Described.set (described : Described project name prepared phase journal) {key : Text}
    {value : Json} (keyPlain : mergeSurrogates key = key) (plain : value.Plain)
    (other : key ∉ readFields) :
    Described project name prepared phase (journal.set key value) := by
  have kept {field : Text} (member : field ∈ readFields) :
      (journal.set key value).get field = journal.get field :=
    Json.get_set_of_ne _ fun same => other (same ▸ member)
  exact {
    plain := described.plain.set_ keyPlain plain
    object := by rw [Json.isSome_set]; exact described.object
    schema := (kept (by simp [readFields])).trans described.schema
    name := (kept (by simp [readFields])).trans described.name
    root := (kept (by simp [readFields])).trans described.root
    phase := (kept (by simp [readFields])).trans described.phase
    records := (kept (by simp [readFields])).trans described.records }

/-- The phase is written. -/
theorem Described.setPhase (described : Described project name prepared phase journal)
    {next : Text} (plain : mergeSurrogates next = next) :
    Described project name prepared next (journal.set "phase" (.str next)) where
  plain := described.plain.set_ (mergeSurrogates_text "phase") (Json.plain_str.mpr plain)
  object := by rw [Json.isSome_set]; exact described.object
  schema := (Json.get_set_of_ne _ (by simp)).trans described.schema
  name := (Json.get_set_of_ne _ (by simp)).trans described.name
  root := (Json.get_set_of_ne _ (by simp)).trans described.root
  phase := Json.get_set_self described.object
  records := (Json.get_set_of_ne _ (by simp)).trans described.records

theorem Described.rolledBack {name phase time : Text} {prepared : List PreparedFile}
    {journal : Json}
    (described : Described project name prepared phase journal)
    (plain : mergeSurrogates time = time) :
    Described project name prepared (text "ROLLED_BACK") (Project.rolledBack journal time) :=
  ((described.setPhase (mergeSurrogates_text _)).set (mergeSurrogates_text _)
    (Json.plain_str.mpr plain) (by simp [readFields])).set (mergeSurrogates_text _)
      (Json.plain_int _) (by simp [readFields])

/-- The time is read back. -/
theorem mergeSurrogates_now (project : Project) (tick : ℕ) :
    mergeSurrogates (project.host.entropy.now tick) = project.host.entropy.now tick := by
  apply mergeSurrogates_of_forall
  intro letter member
  have small := project.host.now_ascii tick letter member
  simp only [isHigh, Bool.and_eq_false_iff, decide_eq_false_iff_not]
  omega

/-- A journal that was written is read back. -/
theorem readRecoveryJournal_jsonLine (described : Described project name prepared phase journal) :
    project.readRecoveryJournal path
      (some (jsonLine project.host.floats .indented journal)) = .ok journal := by
  have read : readJson project.host.floats (jsonLine project.host.floats .indented journal) =
      some journal := by
    rw [readJson_jsonLine, described.plain]
  simp only [Project.readRecoveryJournal, Option.bind_some, read, require, described.object,
    if_true]
  rfl

/-- The plan of a recovery. -/
def planFor (project : Project) (journalPath : Path) (phase : Text) (forceRollback : Bool)
    (prepared : List PreparedFile) (journal : Json) : RecoveryPlan where
  journalPath := journalPath
  journal := journal
  rollback := phase ∈ [text "PREPARED", text "APPLYING"] ||
    (phase = text "COMMITTED" && forceRollback)
  destinations := prepared.map (PreparedFile.destination project phase forceRollback)

/-- What a transaction wrote into its journal becomes the plan of its recovery. -/
theorem prepareRecovery_described (reads : project.host.ReadsDigits) (rooted : project.Rooted)
    (destined : Destined prepared) (known : phase ∈ Project.phases)
    (described : Described project name prepared phase journal) (journalPath : Path)
    (forceRollback : Bool) :
    project.prepareRecovery journalPath forceRollback journal =
      .ok (planFor project journalPath phase forceRollback prepared journal) := by
  have records : project.prepareRecords phase forceRollback []
      (prepared.mapIdx project.recordOf) =
        .ok (prepared.map (PreparedFile.destination project phase forceRollback)) := by
    have read := @prepareRecords_recordsOf project reads phase forceRollback prepared destined 0 []
      (fun _ _ => List.not_mem_nil)
    simpa only [Nat.zero_add] using read
  have filled : project.pathText [] ≠ [] := by
    rw [Project.pathText]
    exact List.cons_ne_nil _ _
  unfold Project.prepareRecovery
  rw [described.schema, described.records, described.root, described.phase]
  simp only [Project.recordsOf, Json.arr?, Json.str?, Option.getD_some, require_eq_ok,
    bind_eq_ok, exists_const, inSet, resolve_root rooted, records, planFor]
  exact ⟨rfl, (), require_eq_ok.mpr rfl, (), require_eq_ok.mpr filled, _, rfl, rfl, _, rfl,
    decide_eq_true known, _, rfl, rfl⟩

end

end CarbonLab.Aegis
