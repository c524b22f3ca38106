import CarbonLab.Aegis.TaskFacts
import CarbonLab.Aegis.TransactionJournal
import CarbonLab.Lib.Cuts

/-!
# The preflight of a transaction

A preflight reads only.  What it prepares are distinct destinations that may be changed, with
what stands there, and the journal that it plans describes them.
-/

namespace CarbonLab.Aegis

open FileProgram

section

variable {project : Project} {operation value : Text} {path : Path}

theorem named_pathParts (value : Text) (dots : text ".." ∉ pathParts value) :
    PlainNames (pathParts value) := by
  intro name member
  obtain ⟨filled, plain⟩ := plain_of_mem_pathParts name member
  have kept : ¬ (name = [] ∨ name = text ".") := by
    have inside := (List.mem_filter.mp member).2
    simpa using inside
  exact ⟨filled, plain, fun dot => kept (Or.inr dot), fun same => dots (same ▸ member)⟩

/-- A confined path has the names of its text below the root. -/
theorem named_of_confinedPath (confined : project.confinedPath value = .ok path) :
    PlainNames path ∧ path ≠ [] ∧
      path = if value.head? = some (code '/') then (pathParts value).drop project.root.length
        else pathParts value := by
  unfold Project.confinedPath at confined
  simp only [bind_eq_ok, require_eq_ok, exists_const] at confined
  obtain ⟨dots, _, _, below, same⟩ := confined
  cases same
  have named := named_pathParts value dots
  refine ⟨fun name member => named name ?_, below, rfl⟩
  split at member
  · exact List.mem_of_mem_drop member
  · exact member

/-- The path of a destination may be changed. -/
theorem writable_of_transactionPath
    (allowed : project.transactionPath operation value = .ok path) :
    Writable path ∧ PlainNames path := by
  unfold Project.transactionPath at allowed
  split at allowed
  · cases allowed
  · cases allowed
  · next passed =>
      obtain ⟨named, below, is⟩ := named_of_confinedPath allowed
      unfold Project.assertAllowed at passed
      simp only [bind_eq_ok, require_eq_ok, exists_const] at passed
      obtain ⟨_, _, first, last, names, _⟩ := passed
      rw [← is] at first last names
      refine ⟨⟨below, ?_, names⟩, named⟩
      rw [governed, decide_eq_false first, decide_eq_false last]
      rfl

end

/-! ## The planned journal -/

theorem base64Digit_small : ∀ value < 64, (base64Digit value).val < 128 := by
  decide

/-- Encoded bytes are ASCII. -/
theorem b64encode_ascii (bytes : Bytes) : ∀ letter ∈ b64encode bytes, letter.val < 128 := by
  have bound (byte : UInt8) : byte.toNat < 256 := byte.toNat_lt
  have pad : (code '=').val < 128 := by decide
  induction bytes using b64encode.induct with
  | case1 =>
      intro letter member
      cases member
  | case2 first =>
      have := bound first
      simp only [b64encode, List.forall_mem_cons, List.not_mem_nil, false_implies,
        implies_true, and_true]
      exact ⟨base64Digit_small _ (by omega), base64Digit_small _ (by omega), pad, pad⟩
  | case3 first second =>
      have := bound first
      have := bound second
      simp only [b64encode, List.forall_mem_cons, List.not_mem_nil, false_implies,
        implies_true, and_true]
      exact ⟨base64Digit_small _ (by omega), base64Digit_small _ (by omega),
        base64Digit_small _ (by omega), pad⟩
  | case4 first second third rest ih =>
      have := bound first
      have := bound second
      have := bound third
      simp only [b64encode, List.forall_mem_cons]
      exact ⟨base64Digit_small _ (by omega), base64Digit_small _ (by omega),
        base64Digit_small _ (by omega), base64Digit_small _ (by omega), ih⟩

section

variable {project : Project} {path : Path} {one : PreparedFile}

/-- The text of a path that the file system encodes is read back. -/
theorem plain_joinParts (encodes : ∀ name ∈ path, encodable name = true) :
    mergeSurrogates (joinParts path) = joinParts path := by
  refine mergeSurrogates_of_forall (forall_mem_joinParts (by decide) ?_)
  exact fun name member => isHigh_of_encodable (encodes name member)

theorem plain_root (rooted : project.Rooted) :
    mergeSurrogates (project.pathText []) = project.pathText [] := by
  rw [Project.pathText, List.append_nil]
  refine mergeSurrogates_of_forall (List.forall_mem_append.mpr ⟨?_, ?_⟩)
  · rw [show text "/" = [code '/'] from rfl, List.forall_mem_singleton]
    decide
  · refine forall_mem_joinParts (by decide) fun name member => ?_
    exact isHigh_of_encodable (rooted.encodes name member)

theorem plain_digestJson (data : Option Bytes) : (digestJson (project.host.sha data)).Plain := by
  cases data with
  | none => rfl
  | some bytes => exact Host.plain_sha256 bytes

/-- A mode that a record can hold. -/
def PlainMode (mode : Json) : Prop := mode = .null ∨ ∃ bits, mode = .int bits

theorem plain_recordOf (writable : Writable one.path) (mode : PlainMode one.mode) (index : ℕ) :
    (project.recordOf index one).Plain := by
  refine Json.plain_ofPairs ?_
  have bits : one.mode.Plain := by
    rcases mode with is | ⟨bits, is⟩
    · rw [is]
      rfl
    · rw [is]
      rfl
  have operation : Json.Plain (.str (if one.data = none then text "delete"
      else text "replace")) := by
    rw [Json.plain_str]
    split
    · exact mergeSurrogates_text _
    · exact mergeSurrogates_text _
  simp only [List.forall_mem_cons, List.not_mem_nil, false_implies, implies_true, and_true,
    mergeSurrogates_text, true_and, Json.plain_int]
  refine ⟨Json.plain_str.mpr (plain_joinParts writable.2.2), plain_digestJson _,
    plain_digestJson _, ?_, bits, operation⟩
  cases one.before with
  | none => rfl
  | some bytes => exact Json.plain_str.mpr (mergeSurrogates_ascii (b64encode_ascii bytes))

/-- The planned journal describes the destinations. -/
theorem described_journalOf {txid name created : Text} {prepared : List PreparedFile}
    (rooted : project.Rooted) (writable : ∀ one ∈ prepared, Writable one.path)
    (modes : ∀ one ∈ prepared, PlainMode one.mode) (txidPlain : mergeSurrogates txid = txid)
    (namePlain : mergeSurrogates name = name) (createdPlain : mergeSurrogates created = created) :
    Described project name prepared "PREPARED"
      (project.journalOf txid name created prepared) where
  plain := by
    have records : (project.recordsOf prepared).Plain := by
      refine Json.plain_arr fun record member => ?_
      obtain ⟨index, bound, rfl⟩ := List.mem_mapIdx.mp member
      have inside : prepared[index] ∈ prepared := List.getElem_mem bound
      exact plain_recordOf (writable _ inside) (modes _ inside) index
    refine Json.plain_ofPairs ?_
    simp only [List.forall_mem_cons, List.not_mem_nil, false_implies, implies_true, and_true,
      mergeSurrogates_text, true_and, Json.plain_int, Json.plain_str]
    exact ⟨txidPlain, namePlain, plain_root rooted, createdPlain, records⟩
  object := rfl
  schema := rfl
  name := rfl
  root := rfl
  phase := rfl
  records := rfl

end

/-! ## What is prepared -/

/-- What was prepared from a mutation, on the files that were read. -/
structure Taken (project : Project) (files : FileSystem) (mutation : Mutation)
    (one : PreparedFile) : Prop where
  path : project.transactionPath "transaction destination" mutation.path = .ok one.path
  before : files.lookup one.path = one.before.map .file
  data : one.data = mutation.data
  plain : PlainMode one.mode
  mode : one.before.isSome → checkMode one.mode = .ok ()

section

variable {project : Project} {modes : Project.Modes} {entropy : Entropy} {disk after : Disk}
  {mutation : Mutation} {mutations : List Mutation} {seen : List Text} {one : PreparedFile}
  {prepared : List PreparedFile}

/-- What was read is what stands there. -/
theorem lookup_of_readOutcome {files : FileSystem} {path : Path} {before : Option Bytes}
    (writable : Writable path) (outcome : readOutcome files path = .ok before) :
    files.lookup path = before.map .file := by
  have encodes : path.all encodable = true := List.all_eq_true.mpr writable.2.2
  unfold readOutcome at outcome
  rw [encodes, Bool.true_and] at outcome
  split at outcome
  · cases is : files.lookup path with
    | none =>
        rw [FileSystem.contents?, is] at outcome
        cases outcome
    | some node =>
        cases node with
        | file contents =>
            rw [FileSystem.contents?, is] at outcome
            cases outcome
            rfl
        | dir =>
            rw [FileSystem.contents?, is] at outcome
            cases outcome
  · next missing =>
      cases outcome
      rw [FileSystem.exists?, Bool.or_eq_true, not_or] at missing
      exact Option.not_isSome_iff_eq_none.mp missing.2

/-- One destination is prepared. -/
theorem taken_of_prepare (ran : (project.prepare modes seen mutation).run (Disk.serve entropy)
    disk = (.ok one, after)) :
    after = disk ∧ Taken project disk.files mutation one ∧ joinParts one.path ∉ seen := by
  unfold Project.prepare at ran
  obtain ⟨path, middle, allowed, ran⟩ := Program.exists_of_run_bind ran
  cases is : project.transactionPath "transaction destination" mutation.path with
  | error raised =>
      rw [is] at allowed
      cases allowed
  | ok found =>
      rw [is] at allowed
      cases allowed
      have writable := (writable_of_transactionPath is).1
      dsimp only at ran
      split at ran
      · cases ran
      · next fresh =>
          obtain ⟨before, last, reads, ran⟩ := Program.exists_of_run_bind ran
          rw [run_read, Prod.mk.injEq] at reads
          obtain ⟨reads, rfl⟩ := reads
          have stands := lookup_of_readOutcome writable reads
          split at ran
          · cases ran
          split at ran
          · cases ran
          · cases ran
            refine ⟨rfl, ⟨is, stands, rfl, ?_, ?_⟩, fresh⟩
            · dsimp only
              split
              · exact Or.inr ⟨_, rfl⟩
              · cases mutation.mode with
                | none => exact Or.inl rfl
                | some bits => exact Or.inr ⟨bits, rfl⟩
            · dsimp only
              intro there
              have encodes : path.all encodable = true := List.all_eq_true.mpr writable.2.2
              have filled : disk.files.exists? path = true := by
                rw [FileSystem.exists?, Bool.or_eq_true]
                refine Or.inr ?_
                rw [stands]
                simpa using there
              change checkMode (if (path.all encodable && disk.files.exists? path) = true
                then Json.int (modes disk.files path).val
                else mutation.mode.elim .null .int) = _
              rw [encodes, filled, Bool.and_true, if_pos rfl, checkMode]
              have bound := (modes disk.files path).isLt
              rw [if_neg (by omega), if_neg (by omega)]

/-- The destinations are prepared one by one, and are distinct. -/
theorem taken_of_prepareAll (ran : (project.prepareAll modes seen mutations).run
    (Disk.serve entropy) disk = (.ok prepared, after)) :
    after = disk ∧ List.Forall₂ (Taken project disk.files) mutations prepared ∧
      (prepared.map PreparedFile.path).Nodup ∧ ∀ one ∈ prepared, joinParts one.path ∉ seen := by
  induction mutations generalizing seen prepared disk with
  | nil =>
      cases ran
      exact ⟨rfl, .nil, List.nodup_nil, nofun⟩
  | cons mutation mutations ih =>
      rw [Project.prepareAll] at ran
      obtain ⟨one, middle, first, later⟩ := Program.exists_of_run_bind ran
      clear ran
      obtain ⟨rfl, taken, fresh⟩ := taken_of_prepare first
      obtain ⟨others, last, rest, ends⟩ := Program.exists_of_run_bind later
      clear later
      cases ends
      obtain ⟨rfl, all, once, apart⟩ := ih rest
      refine ⟨rfl, .cons taken all, ?_, List.forall_mem_cons.mpr ⟨fresh, ?_⟩⟩
      · refine List.nodup_cons.mpr ⟨fun inside => ?_, once⟩
        obtain ⟨other, member, same⟩ := List.mem_map.mp inside
        refine apart other member ?_
        rw [same]
        exact List.mem_cons_self
      · exact fun other member seen => apart other member (List.mem_cons_of_mem _ seen)

/-- A preflight that returned changed no file. -/
theorem of_preflight {transaction : FileTransaction} {found : Project.Preflight}
    (ran : (project.preflight modes transaction).run (Disk.serve entropy) disk =
      (.ok found, after)) :
    after.files = disk.files ∧
      List.Forall₂ (Taken project disk.files) transaction.mutations found.prepared ∧
      (found.prepared.map PreparedFile.path).Nodup ∧
      ∃ tick tick', found.txid = transaction.name ++ text "-" ++ entropy.uuid tick ∧
        found.journal = project.journalOf found.txid transaction.name (entropy.now tick')
          found.prepared := by
  unfold Project.preflight at ran
  obtain ⟨uuid, middle, drawn, ran⟩ := Program.exists_of_run_bind ran
  cases drawn
  obtain ⟨prepared, last, all, ran⟩ := Program.exists_of_run_bind ran
  obtain ⟨rfl, taken, once, _⟩ := taken_of_prepareAll all
  obtain ⟨created, final, clock, ran⟩ := Program.exists_of_run_bind ran
  cases clock
  cases ran
  exact ⟨rfl, taken, once, _, _, rfl, rfl⟩

/-- A preflight changes no file. -/
theorem keeps_preflight {transaction : FileTransaction} {kept : Disk → Prop}
    (start : kept disk) (ticks : ∀ disk, kept disk → kept disk.tick) :
    Program.Keeps (Disk.serve entropy) (project.preflight modes transaction) kept disk := by
  have reading (mutations : List Mutation) (seen : List Text) :
      (project.prepareAll modes seen mutations).Asks (· = .look) := by
    induction mutations generalizing seen with
    | nil => trivial
    | cons mutation mutations ih =>
        refine Program.Asks.bind ?_ fun one => Program.Asks.bind (ih _) fun _ => trivial
        unfold Project.prepare
        refine Program.Asks.bind (reads_ofExcept _) fun path => ?_
        dsimp only
        split
        · trivial
        refine Program.Asks.bind ?_ fun before => ?_
        · unfold FileProgram.read
          refine Program.Asks.bind ⟨rfl, fun _ => trivial⟩ fun there => ?_
          split
          · refine Program.Asks.bind ⟨rfl, fun files => ?_⟩ fun _ => trivial
            dsimp only
            split <;> trivial
          · trivial
        · split
          · trivial
          split
          · trivial
          · exact ⟨rfl, fun _ => trivial⟩
  have asks : (project.preflight modes transaction).Asks
      (fun request => request = .look ∨ request = .now ∨ request = .uuid) := by
    unfold Project.preflight
    refine Program.Asks.bind ⟨Or.inr (Or.inr rfl), fun _ => trivial⟩ fun uuid => ?_
    refine Program.Asks.bind ((reading _ _).mono fun _ asked => Or.inl asked) fun prepared => ?_
    exact Program.Asks.bind ⟨Or.inr (Or.inl rfl), fun _ => trivial⟩ fun _ => trivial
  refine asks.keeps ?_ start
  rintro request (rfl | rfl | rfl) state held
  · exact held
  · exact ticks _ held
  · exact ticks _ held

end

end CarbonLab.Aegis
