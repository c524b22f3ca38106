import CarbonLab.Aegis.TransactionCommit
import CarbonLab.Lib.Batches

/-!
# Runs of transactions

Processes that commit transactions of one name, one after another, each of which may be cut
short at any system call.  Whatever they do, the managed files hold what the batches that
returned, and some of those that were cut short, make of them as a whole.
-/

namespace CarbonLab.Aegis

open FileProgram

/-- The files that transactions of one name manage, and where they keep their journals. -/
structure Layout (project : Project) where
  stateDir : Path
  name : Text
  managed : Path → Prop
  /-- The contents that occur. -/
  known : Bytes → Prop
  rooted : project.Rooted
  reads : project.host.ReadsDigits
  distinct : ∀ first second, known first → known second →
    project.host.sha256 first = project.host.sha256 second → first = second
  uuids : ∀ tick, encodable (project.host.entropy.uuid tick) = true
  named : encodable name = true
  writable : Writable stateDir
  lasting : ¬ Temporary stateDir
  /-- No managed file is the state directory, above it or in it. -/
  outside : ∀ path, managed path → ¬ stateDir <+: path ∧ ¬ path <+: stateDir
  /-- No managed file is above another one. -/
  apart : ∀ path other, managed path → managed other → ¬ path <+: other.dropLast
  /-- No managed file has or is under the name of a temporary file. -/
  permanent : ∀ path, managed path → ∀ above, above <+: path → ¬ Temporary above

namespace Layout

variable {project : Project} (layout : Layout project)

/-- Files on which no transaction is pending. -/
structure Settled (files : FileSystem) : Prop where
  home : files.isFile layout.stateDir = false
  idle : ∀ name, files.isDir (layout.stateDir ++ [name]) = false
  clear : ∀ path, layout.managed path → files.Clear path
  known : ∀ path, layout.managed path → ∀ bytes ∈ files.contents? path, layout.known bytes

/-- The contents of the managed files. -/
abbrev Store := { path // layout.managed path } → Option Bytes

/-- What a transaction writes: `none` where it deletes. -/
abbrev Batch := List (Path × Option Bytes)

/-- The store of some files. -/
def store (files : FileSystem) : layout.Store := fun path => files.contents? path.val

/-- A batch is carried out. -/
def apply (batch : Batch) (store : layout.Store) : layout.Store :=
  fun path => (batch.lookup path.val).getD (store path)

/-- A transaction of the layout. -/
structure Owns (transaction : FileTransaction) : Prop where
  stateDir : transaction.stateDir = layout.stateDir
  name : transaction.name = layout.name
  managed : ∀ mutation ∈ transaction.mutations, ∀ path,
    project.transactionPath "transaction destination" mutation.path = .ok path →
      layout.managed path
  known : ∀ mutation ∈ transaction.mutations, ∀ bytes ∈ mutation.data, layout.known bytes

/-- An attempt of a transaction of the layout. -/
structure Hosts (attempt : Attempt project) : Prop where
  stateDir : attempt.stateDir = layout.stateDir
  name : attempt.name = layout.name
  managed : ∀ one ∈ attempt.prepared, layout.managed one.path
  known : ∀ one ∈ attempt.prepared, ∀ bytes ∈ one.data, layout.known bytes
  settled : layout.Settled attempt.start

end Layout

/-- The batch of a transaction. -/
def Project.batch (project : Project) (transaction : FileTransaction) : Layout.Batch :=
  transaction.mutations.filterMap fun mutation =>
    match project.transactionPath "transaction destination" mutation.path with
    | .ok path => some (path, mutation.data)
    | .error _ => none

/-- The batch of an attempt. -/
def Attempt.batch {project : Project} (attempt : Attempt project) : Layout.Batch :=
  attempt.prepared.map fun one => (one.path, one.data)

/-! ## Attempts of a layout -/

section

variable {project : Project} {layout : Layout project} {attempt : Attempt project}
  {files after : FileSystem}

theorem lookup_batch {prepared : List PreparedFile} {one : PreparedFile}
    (once : (prepared.map PreparedFile.path).Nodup) (member : one ∈ prepared) :
    (prepared.map fun one => (one.path, one.data)).lookup one.path = some one.data := by
  induction prepared with
  | nil => cases member
  | cons other prepared ih =>
      obtain ⟨fresh, once⟩ := List.nodup_cons.mp once
      rw [List.map_cons, List.lookup_cons]
      rcases List.mem_cons.mp member with rfl | later
      · rw [beq_self_eq_true]
      · have different : one.path ≠ other.path := fun same =>
          fresh (List.mem_map.mpr ⟨one, later, same⟩)
        rw [beq_false_of_ne different]
        exact ih once later

theorem lookup_batch_none {prepared : List PreparedFile} {path : Path}
    (other : path ∉ prepared.map PreparedFile.path) :
    (prepared.map fun one => (one.path, one.data)).lookup path = none := by
  rw [List.lookup_eq_none_iff]
  intro entry member
  obtain ⟨one, inside, rfl⟩ := List.mem_map.mp member
  simpa using fun same => other (List.mem_map.mpr ⟨one, inside, same.symm⟩)

namespace Layout

/-- A managed file that is no destination has the contents that it had. -/
theorem contents?_of_torn (hosts : layout.Hosts attempt) (torn : attempt.Torn files) {path : Path}
    (managed : layout.managed path) (other : path ∉ attempt.prepared.map PreparedFile.path) :
    files.contents? path = attempt.start.contents? path := by
  refine torn.grown.contents? ?_ fun temporary =>
    absurd temporary (layout.permanent path managed path List.prefix_rfl)
  rintro (destination | inside)
  · exact other destination
  · have outside := (layout.outside path managed).1
    rw [← hosts.stateDir] at outside
    exact outside (Attempt.stateDir_prefix_txDir.trans inside)

/-- Where the destinations are as they were, so is the store. -/
theorem store_of_before (hosts : layout.Hosts attempt) (torn : attempt.Torn files)
    (before : attempt.Before files) : layout.store files = layout.store attempt.start := by
  funext ⟨path, managed⟩
  by_cases destination : path ∈ attempt.prepared.map PreparedFile.path
  · obtain ⟨one, member, rfl⟩ := List.mem_map.mp destination
    rw [store, store, Attempt.contents?_of_lookup (before one member),
      Attempt.contents?_of_lookup (attempt.before one member)]
  · exact contents?_of_torn hosts torn managed destination

/-- Where the destinations are written, the batch was carried out. -/
theorem store_of_after (hosts : layout.Hosts attempt) (torn : attempt.Torn files)
    (after : attempt.After files) :
    layout.store files = layout.apply attempt.batch (layout.store attempt.start) := by
  funext ⟨path, managed⟩
  rw [apply]
  by_cases destination : path ∈ attempt.prepared.map PreparedFile.path
  · obtain ⟨one, member, rfl⟩ := List.mem_map.mp destination
    rw [Attempt.batch, lookup_batch attempt.destined.distinct member, Option.getD_some, store,
      Attempt.contents?_of_lookup (after one member)]
  · rw [Attempt.batch, lookup_batch_none destination]
    exact contents?_of_torn hosts torn managed destination

/-- Each managed file holds what it held or what the transaction writes. -/
theorem store_of_torn (hosts : layout.Hosts attempt) (torn : attempt.Torn files)
    (path : { path // layout.managed path }) :
    layout.store files path = layout.store attempt.start path ∨
      layout.store files path =
        layout.apply attempt.batch (layout.store attempt.start) path := by
  obtain ⟨path, managed⟩ := path
  by_cases destination : path ∈ attempt.prepared.map PreparedFile.path
  · obtain ⟨one, member, rfl⟩ := List.mem_map.mp destination
    refine (torn.either one member).imp (fun is => ?_) fun is => ?_
    · rw [store, store, Attempt.contents?_of_lookup is,
        Attempt.contents?_of_lookup (attempt.before one member)]
    · rw [apply, Attempt.batch, lookup_batch attempt.destined.distinct member, Option.getD_some,
        store, Attempt.contents?_of_lookup is]
  · exact Or.inl (contents?_of_torn hosts torn managed destination)

/-- Different bytes of a destination have different digests. -/
theorem Hosts.distinguished (hosts : layout.Hosts attempt) : attempt.Distinguished := by
  intro one member same
  have managed := hosts.managed one member
  have before : ∀ bytes ∈ one.before, layout.known bytes := by
    intro bytes is
    refine hosts.settled.known one.path managed bytes ?_
    rw [Attempt.contents?_of_lookup (attempt.before one member)]
    exact is
  have data := hosts.known one member
  cases held : one.before with
  | none =>
      rw [held] at same
      cases written : one.data with
      | none => rfl
      | some bytes =>
          rw [written] at same
          cases same
  | some first =>
      rw [held] at same
      cases written : one.data with
      | none =>
          rw [written] at same
          cases same
      | some second =>
          rw [written] at same
          rw [layout.distinct first second (before first held) (data second written)
            (Option.some.inj same)]

/-- When no transaction is pending any more, the files are settled again. -/
theorem settled_of_torn (hosts : layout.Hosts attempt) (torn : attempt.Torn files)
    (closed : files.isDir attempt.txDir = false) : layout.Settled files where
  home := by
    cases there : files.isDir layout.stateDir with
    | true =>
        rw [FileSystem.isFile_eq_false]
        rcases FileSystem.isDir_iff.mp there with root | directory
        · exact absurd root layout.writable.1
        · exact Or.inr directory
    | false =>
        have missing := torn.home (by rw [hosts.stateDir]; exact there)
        rw [FileSystem.isFile_eq_false]
        rw [hosts.stateDir, FileSystem.exists?, Bool.or_eq_false_iff] at missing
        exact Or.inl (Option.not_isSome_iff_eq_none.mp (Bool.eq_false_iff.mp missing.2))
  idle name := by
    rw [← Bool.not_eq_true]
    intro directory
    rw [← hosts.stateDir] at directory
    rw [torn.only name directory] at directory
    exact Bool.eq_false_iff.mp closed directory
  clear path managed := by
    intro above prefixed
    have under : above <+: path := prefixed.trans (List.dropLast_prefix _)
    have foreign : ¬ attempt.Own above := by
      rintro (destination | inside)
      · obtain ⟨one, member, rfl⟩ := List.mem_map.mp destination
        exact layout.apart one.path path (hosts.managed one member) managed prefixed
      · have outside := (layout.outside path managed).1
        rw [← hosts.stateDir] at outside
        exact outside ((Attempt.stateDir_prefix_txDir.trans inside).trans under)
    rw [FileSystem.isFile_eq_false]
    rcases torn.grown above foreign with same | ⟨_, directory | temporary⟩
    · rw [same]
      exact FileSystem.isFile_eq_false.mp (hosts.settled.clear path managed above prefixed)
    · exact Or.inr directory
    · exact absurd temporary (layout.permanent path managed above under)
  known path managed bytes holds := by
    by_cases destination : path ∈ attempt.prepared.map PreparedFile.path
    · obtain ⟨one, member, rfl⟩ := List.mem_map.mp destination
      rcases torn.either one member with is | is
      · refine hosts.settled.known one.path managed bytes ?_
        rw [Attempt.contents?_of_lookup is] at holds
        rwa [Attempt.contents?_of_lookup (attempt.before one member)]
      · rw [Attempt.contents?_of_lookup is] at holds
        exact hosts.known one member bytes holds
    · rw [contents?_of_torn hosts torn managed destination] at holds
      exact hosts.settled.known path managed bytes holds

/-- An attempt on settled files. -/
def attemptOn (layout : Layout project) (settled : layout.Settled files) (txid : Text)
    (encodes : encodable txid = true) {prepared : List PreparedFile} (destined : Destined prepared)
    (managed : ∀ one ∈ prepared, layout.managed one.path)
    (before : ∀ one ∈ prepared, files.lookup one.path = one.before.map .file)
    (mode : ∀ one ∈ prepared, one.before.isSome → checkMode one.mode = .ok ()) :
    Attempt project where
  start := files
  stateDir := layout.stateDir
  txid := txid
  name := layout.name
  prepared := prepared
  rooted := layout.rooted
  reads := layout.reads
  destined := destined
  writable := by
    obtain ⟨below, free, names⟩ := layout.writable
    refine ⟨by simp, ?_, ?_⟩
    · obtain ⟨first, rest, is⟩ := List.exists_cons_of_ne_nil below
      rw [governed, Bool.or_eq_false_iff] at free ⊢
      refine ⟨?_, ?_⟩
      · rw [is] at free ⊢
        exact free.1
      · rw [show layout.stateDir ++ [txid, text "journal.json"] =
          (layout.stateDir ++ [txid]) ++ [text "journal.json"] by simp, List.getLast?_concat]
        simp
    · intro name member
      rcases List.mem_append.mp member with above | here
      · exact names name above
      · simp only [List.mem_cons, List.not_mem_nil, or_false] at here
        rcases here with rfl | rfl
        · exact encodes
        · decide
  home := ⟨settled.home, layout.lasting⟩
  outside one member := layout.outside one.path (managed one member)
  apart one member other member' :=
    layout.apart one.path other.path (managed one member) (managed other member')
  lasting one member := layout.permanent one.path (managed one member)
  clear one member := settled.clear one.path (managed one member)
  before := before
  mode := mode
  settled := settled.idle

/-- A transaction that was made for the layout. -/
theorem owns_of_fileTransaction {mutations : List Mutation} {stateDir : Text} {fault : FaultHook}
    {transaction : FileTransaction}
    (home : project.transactionPath "transaction journal" stateDir = .ok layout.stateDir)
    (managed : ∀ mutation ∈ mutations, ∀ path,
      project.transactionPath "transaction destination" mutation.path = .ok path →
        layout.managed path)
    (known : ∀ mutation ∈ mutations, ∀ bytes ∈ mutation.data, layout.known bytes)
    (made : project.fileTransaction mutations stateDir layout.name fault = .ok transaction) :
    layout.Owns transaction := by
  rw [Project.fileTransaction, bind_eq_ok] at made
  obtain ⟨resolved, is, made⟩ := made
  rw [home] at is
  cases is
  rw [bind_eq_ok] at made
  obtain ⟨_, _, made⟩ := made
  cases made
  exact ⟨rfl, rfl, managed, known⟩

/-! ## What may have happened -/

variable {first : layout.Store} {log : List (Fate × Batch)} {disk : Disk}

/-- What may become of the attempt: anything, or it is over. -/
inductive Possible (layout : Layout project) (first : layout.Store) (log : List (Fate × Batch))
    (attempt : Attempt project) (files : FileSystem) : Prop
  | either (left : BatchOutcome layout.apply first log (layout.store attempt.start))
      (done : BatchOutcome layout.apply first log
        (layout.apply attempt.batch (layout.store attempt.start)))
  | undone (kept : attempt.Kept "ROLLED_BACK" files)
      (left : BatchOutcome layout.apply first log (layout.store attempt.start))
  | done (kept : attempt.Kept "COMMITTED" files)
      (done : BatchOutcome layout.apply first log
        (layout.apply attempt.batch (layout.store attempt.start)))

/-- Files that a log may have led to: at most one attempt is open, and what becomes of it is
possible. -/
def Reached (layout : Layout project) (first : layout.Store) (log : List (Fate × Batch))
    (files : FileSystem) : Prop :=
  ∃ attempt : Attempt project, layout.Hosts attempt ∧ attempt.Torn files ∧
    layout.Possible first log attempt files

/-- A batch that did not return may have been left out. -/
theorem Reached.skip (reached : layout.Reached first log files) {fate : Fate} (batch : Batch)
    (left : fate ≠ .returned) : layout.Reached first (log ++ [(fate, batch)]) files := by
  obtain ⟨attempt, hosts, torn, possible⟩ := reached
  refine ⟨attempt, hosts, torn, ?_⟩
  rcases possible with ⟨left', done⟩ | ⟨kept, left'⟩ | ⟨kept, done⟩
  · exact .either (.skipped batch left left') (.skipped batch left done)
  · exact .undone kept (.skipped batch left left')
  · exact .done kept (.skipped batch left done)

/-- The store is one of the outcomes where the attempt is settled. -/
theorem Possible.outcome (hosts : layout.Hosts attempt) (torn : attempt.Torn files)
    (possible : layout.Possible first log attempt files)
    (settled : attempt.Before files ∨ attempt.After files) :
    BatchOutcome layout.apply first log (layout.store files) := by
  rcases possible with ⟨left, done⟩ | ⟨kept, left⟩ | ⟨kept, done⟩
  · rcases settled with before | after
    · rw [store_of_before hosts torn before]
      exact left
    · rw [store_of_after hosts torn after]
      exact done
  · have before := kept.settled
    rw [if_neg (by simp)] at before
    rw [store_of_before hosts torn before]
    exact left
  · have after := kept.settled
    rw [if_pos rfl] at after
    rw [store_of_after hosts torn after]
    exact done

/-- Settled files are reached with nothing open. -/
theorem reached_of_settled (settled : layout.Settled files)
    (outcome : BatchOutcome layout.apply first log (layout.store files)) :
    layout.Reached first log files := by
  have empty : Destined [] := ⟨nofun, nofun, List.nodup_nil⟩
  refine ⟨layout.attemptOn settled (text "idle") (by decide) empty nofun nofun nofun,
    ⟨rfl, rfl, nofun, nofun, settled⟩, (Attempt.quiet_start _).torn, .either outcome ?_⟩
  exact outcome

/-! ## Recovery -/

/-- The recovery of the layout's transactions. -/
def recovery (layout : Layout project) : FileProgram (List Json) :=
  project.recoverPending layout.stateDir (some layout.name) true

theorem Hosts.recovery (hosts : layout.Hosts attempt) : attempt.recovery = layout.recovery := by
  rw [Attempt.recovery, Layout.recovery, hosts.stateDir, hosts.name]

/-- A recovery stays among what the log may have led to, and settles it when it returns. -/
theorem Reached.meets_recovery (reached : layout.Reached first log disk.files) :
    Program.Meets (Disk.serve project.host.entropy) layout.recovery
      (fun cut => layout.Reached first log cut.files)
      (fun outcome final => ∀ recovered, outcome = .ok recovered →
        layout.Settled final.files ∧
          BatchOutcome layout.apply first log (layout.store final.files)) disk := by
  obtain ⟨attempt, hosts, torn, possible⟩ := reached
  rw [← hosts.recovery]
  have distinguished := hosts.distinguished
  have keeps : Program.Keeps (Disk.serve project.host.entropy) attempt.recovery
      (fun cut => attempt.Torn cut.files ∧ layout.Possible first log attempt cut.files) disk := by
    rcases possible with ⟨left, done⟩ | ⟨kept, left⟩ | ⟨kept, done⟩
    · exact (Attempt.keeps_recovery torn distinguished).mono
        (fun _ torn => ⟨torn, .either left done⟩) fun _ _ _ _ => trivial
    · exact (kept.keeps_recovery (by simp [Attempt.settledPhases])).mono
        (fun _ kept => ⟨kept.torn, .undone kept left⟩) fun _ _ _ _ => trivial
    · exact (kept.keeps_recovery (by simp [Attempt.settledPhases])).mono
        (fun _ kept => ⟨kept.torn, .done kept done⟩) fun _ _ _ _ => trivial
  refine (keeps.meets ?_).mono (fun _ held => ⟨attempt, hosts, held⟩) fun _ _ _ held => held
  rintro outcome final ran ⟨torn', possible'⟩ recovered rfl
  obtain ⟨settled, closed⟩ := Attempt.recovery_settles torn distinguished ran
  exact ⟨settled_of_torn hosts torn' closed, possible'.outcome hosts torn' settled⟩

/-! ## Commits -/

theorem store_of_sprouted (sprouted : Sprouted layout.stateDir files after) :
    layout.store after = layout.store files := by
  funext ⟨path, managed⟩
  rw [store, store, FileSystem.contents?, FileSystem.contents?,
    sprouted.lookup_eq (layout.outside path managed).2]

/-- Directories above the journals do not matter. -/
theorem torn_of_sprouted (torn : attempt.Torn files)
    (sprouted : Sprouted attempt.stateDir files after) : attempt.Torn after := by
  have destination {one : PreparedFile} (member : one ∈ attempt.prepared) :
      after.lookup one.path = files.lookup one.path :=
    sprouted.lookup_eq (attempt.outside one member).2
  have journal : after.lookup attempt.journalPath = files.lookup attempt.journalPath :=
    sprouted.lookup_eq_of_length (by simp [Attempt.journalPath, Attempt.txDir])
  have inside (name : Text) : after.isDir (attempt.stateDir ++ [name]) =
      files.isDir (attempt.stateDir ++ [name]) := by
    rw [FileSystem.isDir, FileSystem.isDir, sprouted.lookup_eq_of_length (by simp)]
  refine { grown := ?_, either := ?_, only := ?_, journal := ?_, absent := ?_ }
  · refine torn.grown.trans fun path _ => ?_
    rcases sprouted path with same | ⟨absent, directory, _⟩
    · exact Or.inl same
    · exact Or.inr ⟨absent, Or.inl directory⟩
  · intro one member
    rw [destination member]
    exact torn.either one member
  · intro name directory
    rw [inside] at directory
    exact torn.only name directory
  · rw [FileSystem.isFile, FileSystem.contents?, journal]
    exact torn.journal
  · intro closed
    rw [Attempt.txDir, inside] at closed
    refine (torn.absent closed).imp ?_ ?_
    · exact fun all one member => (destination member).trans (all one member)
    · exact fun all one member => (destination member).trans (all one member)

theorem kept_of_sprouted {phase : Text} (kept : attempt.Kept phase files)
    (sprouted : Sprouted attempt.stateDir files after) : attempt.Kept phase after := by
  have destination {one : PreparedFile} (member : one ∈ attempt.prepared) :
      after.lookup one.path = files.lookup one.path :=
    sprouted.lookup_eq (attempt.outside one member).2
  refine ⟨torn_of_sprouted kept.torn sprouted, ?_, fun other journal found => ?_⟩
  · have settled := kept.settled
    split at settled
    · next committed =>
        rw [if_pos committed]
        exact fun one member => (destination member).trans (settled one member)
    · next open_ =>
        rw [if_neg open_]
        exact fun one member => (destination member).trans (settled one member)
  · refine kept.found other journal ⟨?_, found.known, found.described, ?_⟩
    · have pending := found.pending
      rwa [FileSystem.isDir, sprouted.lookup_eq_of_length (by simp [Attempt.txDir]),
        ← FileSystem.isDir] at pending
    · have lookup := found.lookup
      rwa [sprouted.lookup_eq_of_length
        (by simp [Attempt.journalPath, Attempt.txDir])] at lookup

theorem Reached.sprouted (reached : layout.Reached first log files)
    (sprouted : Sprouted layout.stateDir files after) : layout.Reached first log after := by
  obtain ⟨attempt, hosts, torn, possible⟩ := reached
  rw [← hosts.stateDir] at sprouted
  refine ⟨attempt, hosts, torn_of_sprouted torn sprouted, ?_⟩
  rcases possible with ⟨left, done⟩ | ⟨kept, left⟩ | ⟨kept, done⟩
  · exact .either left done
  · exact .undone (kept_of_sprouted kept sprouted) left
  · exact .done (kept_of_sprouted kept sprouted) done

/-- The batch of a transaction is that of the destinations that were prepared. -/
theorem batch_of_taken {mutations : List Mutation} {prepared : List PreparedFile}
    (taken : List.Forall₂ (Taken project files) mutations prepared) :
    (mutations.filterMap fun mutation =>
      match project.transactionPath "transaction destination" mutation.path with
      | .ok path => some (path, mutation.data)
      | .error _ => none) = prepared.map fun one => (one.path, one.data) := by
  induction taken with
  | nil => rfl
  | cons here _ ih =>
      rw [List.filterMap_cons, here.path, List.map_cons, ← here.data, ih]

theorem over_kept {phase : Text} (ends : attempt.Over phase files) : attempt.Kept phase files where
  torn := ends.torn
  settled := ends.settled
  found other journal found := by
    rcases ends.rest with closed | ⟨journal', found', _⟩
    · have pending := found.pending
      rw [closed] at pending
      cases pending
    · exact found'.phase_unique found

/-- Where nothing is pending, a recovery returns and changes nothing. -/
theorem Settled.run_recovery (settled : layout.Settled disk.files) :
    layout.recovery.run (Disk.serve project.host.entropy) disk = (.ok [], disk) := by
  have empty : Destined [] := ⟨nofun, nofun, List.nodup_nil⟩
  have quiet := Attempt.quiet_start
    (layout.attemptOn settled (text "idle") (by decide) empty nofun nofun nofun)
  exact quiet.torn.run_nothing quiet.unopened

variable {modes : Project.Modes} {transaction : FileTransaction} {retain : Bool}

/-- What a preflight found is an attempt of the layout. -/
theorem exists_attempt (owns : layout.Owns transaction) (settled : layout.Settled files)
    {found : Project.Preflight} {tick : ℕ}
    (txid : found.txid = transaction.name ++ text "-" ++ project.host.entropy.uuid tick)
    (taken : List.Forall₂ (Taken project files) transaction.mutations found.prepared)
    (once : (found.prepared.map PreparedFile.path).Nodup) :
    ∃ attempt : Attempt project, layout.Hosts attempt ∧ attempt.start = files ∧
      attempt.txid = found.txid ∧ attempt.prepared = found.prepared := by
  have from_ {one : PreparedFile} (member : one ∈ found.prepared) :
      ∃ mutation ∈ transaction.mutations, Taken project files mutation one :=
    exists_of_forall₂_right taken member
  have encodes : encodable found.txid = true := by
    rw [txid, owns.name, encodable, List.all_append, List.all_append]
    rw [Bool.and_eq_true, Bool.and_eq_true]
    exact ⟨⟨layout.named, by decide⟩, layout.uuids tick⟩
  have managed : ∀ one ∈ found.prepared, layout.managed one.path := by
    intro one member
    obtain ⟨mutation, inside, here⟩ := from_ member
    exact owns.managed mutation inside one.path here.path
  have destined : Destined found.prepared := by
    refine ⟨fun one member => ?_, fun one member => ?_, once⟩
    · obtain ⟨mutation, _, here⟩ := from_ member
      exact (writable_of_transactionPath here.path).2
    · obtain ⟨mutation, _, here⟩ := from_ member
      exact (writable_of_transactionPath here.path).1
  refine ⟨layout.attemptOn settled found.txid encodes destined managed (fun one member => ?_)
    (fun one member => ?_), ⟨rfl, rfl, managed, fun one member bytes holds => ?_, settled⟩,
    rfl, rfl, rfl⟩
  · obtain ⟨mutation, _, here⟩ := from_ member
    exact here.before
  · obtain ⟨mutation, _, here⟩ := from_ member
    exact here.mode
  · obtain ⟨mutation, inside, here⟩ := from_ member
    rw [here.data] at holds
    exact owns.known mutation inside bytes holds

/-- A transaction on settled files stays among what its log may lead to. -/
theorem meets_settled (owns : layout.Owns transaction) (settled : layout.Settled disk.files)
    (outcome : BatchOutcome layout.apply first log (layout.store disk.files)) :
    Program.Meets (Disk.serve project.host.entropy)
      (do
        let found ← project.preflight modes transaction
        let txDir := transaction.stateDir ++ [found.txid]
        (project.transact transaction.fault txDir found.journal found.prepared retain).tryCatch
          (project.rollback txDir))
      (fun cut => layout.Reached first (log ++ [(.cut, project.batch transaction)]) cut.files)
      (fun result final => match result with
        | .ok _ => layout.Reached first (log ++ [(.returned, project.batch transaction)])
              final.files ∧
            layout.store final.files =
              layout.apply (project.batch transaction) (layout.store disk.files) ∧
            (retain = false → layout.Settled final.files)
        | .error _ => layout.Reached first (log ++ [(.raised, project.batch transaction)])
              final.files ∧
            layout.store final.files = layout.store disk.files) disk := by
  have reached := reached_of_settled settled outcome
  have reading : Program.Keeps (Disk.serve project.host.entropy)
      (project.preflight modes transaction) (fun cut => cut.files = disk.files) disk :=
    keeps_preflight rfl fun _ held => held
  refine Program.Meets.bind ((reading.meets fun result final ran same => And.intro ran same).mono
    (fun cut same => by rw [same]; exact reached.skip _ (by simp)) ?_)
  rintro (raised | found) middle - ⟨ran, same⟩
  · rw [same]
    exact ⟨reached.skip _ (by simp), rfl⟩
  obtain ⟨_, taken, once, tick, tick', txid, journal⟩ := of_preflight ran
  obtain ⟨attempt, hosts, start, named, prepared⟩ := exists_attempt owns settled txid taken once
  have batch : attempt.batch = project.batch transaction := by
    rw [Attempt.batch, prepared]
    exact (batch_of_taken taken).symm
  have quiet : attempt.Quiet middle.files := by
    rw [same, ← start]
    exact attempt.quiet_start
  have described : Described project attempt.name attempt.prepared "PREPARED" found.journal := by
    have plain {name : Text} (encodes : encodable name = true) : mergeSurrogates name = name :=
      mergeSurrogates_of_forall (isHigh_of_encodable encodes)
    have member : found.txid ∈ attempt.stateDir ++ [attempt.txid, text "journal.json"] := by
      rw [named]
      simp
    rw [journal, prepared, hosts.name, owns.name]
    refine described_journalOf layout.rooted (fun one inside => ?_) (fun one inside => ?_)
      (plain (attempt.writable.2.2 _ member)) (plain layout.named) (mergeSurrogates_now project _)
    · rw [← prepared] at inside
      exact attempt.destined.writable one inside
    · obtain ⟨mutation, _, here⟩ := exists_of_forall₂_right taken inside
      exact here.plain
  dsimp only
  rw [owns.stateDir, ← hosts.stateDir, ← named, ← prepared,
    show attempt.stateDir ++ [attempt.txid] = attempt.txDir from rfl]
  have left : layout.store attempt.start = layout.store disk.files := by rw [start]
  have done : layout.apply attempt.batch (layout.store attempt.start) =
      layout.apply (project.batch transaction) (layout.store disk.files) := by rw [batch, left]
  refine (Attempt.meets_attempt quiet described).mono (fun cut torn => ?_)
    fun result final torn ends => ?_
  · refine ⟨attempt, hosts, torn, .either ?_ ?_⟩
    · rw [left]
      exact .skipped _ (by simp) outcome
    · rw [done]
      exact .done _ (by simp) outcome
  · cases result with
    | ok journal =>
        obtain ⟨ended, closed⟩ := ends
        have kept := over_kept ended
        have after := kept.settled
        rw [if_pos rfl] at after
        refine ⟨⟨attempt, hosts, torn, .done kept ?_⟩, ?_, fun unretained => ?_⟩
        · rw [done]
          exact .done _ (by simp) outcome
        · rw [store_of_after hosts torn after, done]
        · exact settled_of_torn hosts torn (closed unretained)
    | error raised =>
        have kept := over_kept ends
        have before := kept.settled
        rw [if_neg (by simp)] at before
        refine ⟨⟨attempt, hosts, torn, .undone kept ?_⟩, ?_⟩
        · rw [left]
          exact .skipped _ (by simp) outcome
        · rw [store_of_before hosts torn before, left]

theorem Settled.sprouted (settled : layout.Settled files)
    (sprouted : Sprouted layout.stateDir files after) : layout.Settled after where
  home := by
    rw [FileSystem.isFile_eq_false]
    rcases sprouted layout.stateDir with same | ⟨_, directory, _⟩
    · rw [same]
      exact FileSystem.isFile_eq_false.mp settled.home
    · exact Or.inr directory
  idle name := by
    have same := sprouted.lookup_eq_of_length
      (show layout.stateDir.length < (layout.stateDir ++ [name]).length by simp)
    rw [FileSystem.isDir, same]
    exact settled.idle name
  clear path managed above prefixed := by
    rw [FileSystem.isFile_eq_false]
    rcases sprouted above with same | ⟨_, directory, _⟩
    · rw [same]
      exact FileSystem.isFile_eq_false.mp (settled.clear path managed above prefixed)
    · exact Or.inr directory
  known path managed bytes holds := by
    have same := congrFun (store_of_sprouted sprouted) ⟨path, managed⟩
    rw [store, store] at same
    rw [same] at holds
    exact settled.known path managed bytes holds

/-- A commit stays among what its log may lead to.  Where nothing was pending it did its
batch if it returned, and nothing if it raised. -/
theorem Reached.meets_commit (modes : Project.Modes) (retain : Bool)
    (reached : layout.Reached first log disk.files)
    (owns : layout.Owns transaction) :
    Program.Meets (Disk.serve project.host.entropy) (project.commit modes transaction retain)
      (fun cut => layout.Reached first (log ++ [(.cut, project.batch transaction)]) cut.files)
      (fun result final => match result with
        | .ok _ => layout.Reached first (log ++ [(.returned, project.batch transaction)])
              final.files ∧ (retain = false → layout.Settled final.files) ∧
            (layout.Settled disk.files → layout.store final.files =
              layout.apply (project.batch transaction) (layout.store disk.files))
        | .error _ => layout.Reached first (log ++ [(.raised, project.batch transaction)])
              final.files ∧
            (layout.Settled disk.files → layout.store final.files = layout.store disk.files))
      disk := by
  have directories : Program.Keeps (Disk.serve project.host.entropy)
      (mkdirParents transaction.stateDir)
      (fun cut => Sprouted layout.stateDir disk.files cut.files) disk := by
    rw [owns.stateDir]
    exact keeps_mkdirParents (Sprouted.refl _)
  unfold Project.commit
  refine Program.Meets.bind (directories.mono
    (fun cut sprouted => (reached.sprouted sprouted).skip _ (by simp)) ?_)
  rintro (raised | _) middle sprouted -
  · exact ⟨(reached.sprouted sprouted).skip _ (by simp), fun _ => store_of_sprouted sprouted⟩
  have recovers := (reached.sprouted sprouted).meets_recovery
  have recovers : Program.Meets (Disk.serve project.host.entropy) layout.recovery
      (fun cut => layout.Reached first log cut.files)
      (fun outcome final => (∀ recovered, outcome = .ok recovered →
        layout.Settled final.files ∧
          BatchOutcome layout.apply first log (layout.store final.files)) ∧
        (layout.Settled disk.files → (∃ recovered, outcome = .ok recovered) ∧
          layout.store final.files = layout.store disk.files)) middle := by
    refine ⟨recovers.1, recovers.2, fun settled => ?_⟩
    rw [(settled.sprouted sprouted).run_recovery]
    exact ⟨⟨_, rfl⟩, store_of_sprouted sprouted⟩
  dsimp only
  rw [owns.stateDir, owns.name,
    show project.recoverPending layout.stateDir (some layout.name) true = layout.recovery from rfl,
    ← owns.stateDir]
  refine Program.Meets.bind (recovers.mono (fun cut reached => reached.skip _ (by simp)) ?_)
  rintro (raised | recovered) last reached ⟨settles, same⟩
  · refine ⟨reached.skip _ (by simp), fun settled => ?_⟩
    obtain ⟨⟨_, absurd_⟩, _⟩ := same settled
    cases absurd_
  obtain ⟨settled, outcome⟩ := settles recovered rfl
  refine (meets_settled owns settled outcome).mono (fun _ held => held) ?_
  intro result final _ ends
  cases result with
  | ok journal =>
      obtain ⟨reached, stored, closed⟩ := ends
      refine ⟨reached, closed, fun settled => ?_⟩
      rw [stored, (same settled).2]
  | error raised =>
      obtain ⟨reached, stored⟩ := ends
      refine ⟨reached, fun settled => ?_⟩
      rw [stored, (same settled).2]

/-! ## Runs -/

/-- What processes do that commit transactions of the layout or recover them, one after
another, each of them cut short at any system call or not at all. -/
inductive Runs (layout : Layout project) (modes : Project.Modes) (start : Disk) :
    List (Fate × Batch) → Disk → Prop
  | start : Runs layout modes start [] start
  | returns {log : List (Fate × Batch)} {disk final : Disk} {journal : Json}
      (transaction : FileTransaction) (retain : Bool) (owns : layout.Owns transaction)
      (earlier : Runs layout modes start log disk)
      (ran : (project.commit modes transaction retain).run
        (Disk.serve project.host.entropy) disk = (.ok journal, final)) :
      Runs layout modes start (log ++ [(.returned, project.batch transaction)]) final
  | raises {log : List (Fate × Batch)} {disk final : Disk} {raised : Raised}
      (transaction : FileTransaction) (retain : Bool) (owns : layout.Owns transaction)
      (earlier : Runs layout modes start log disk)
      (ran : (project.commit modes transaction retain).run
        (Disk.serve project.host.entropy) disk = (.error raised, final)) :
      Runs layout modes start (log ++ [(.raised, project.batch transaction)]) final
  | cut {log : List (Fate × Batch)} {disk cut : Disk}
      (transaction : FileTransaction) (retain : Bool) (owns : layout.Owns transaction)
      (earlier : Runs layout modes start log disk)
      (visits : Program.Visits (Disk.serve project.host.entropy)
        (project.commit modes transaction retain) disk cut) :
      Runs layout modes start (log ++ [(.cut, project.batch transaction)]) cut
  | recovers {log : List (Fate × Batch)} {disk cut : Disk}
      (earlier : Runs layout modes start log disk)
      (visits : Program.Visits (Disk.serve project.host.entropy) layout.recovery disk cut) :
      Runs layout modes start log cut

/-- A run stays among what its log may lead to. -/
theorem Runs.reached {start disk : Disk} (runs : layout.Runs modes start log disk)
    (settled : layout.Settled start.files) :
    layout.Reached (layout.store start.files) log disk.files := by
  induction runs with
  | start => exact reached_of_settled settled .start
  | returns transaction retain owns earlier ran ih =>
      have ends := (ih.meets_commit modes retain owns).2
      rw [ran] at ends
      exact ends.1
  | raises transaction retain owns earlier ran ih =>
      have ends := (ih.meets_commit modes retain owns).2
      rw [ran] at ends
      exact ends.1
  | cut transaction retain owns earlier visits ih =>
      exact (ih.meets_commit _ _ owns).1 _ visits
  | recovers earlier visits ih => exact ih.meets_recovery.1 _ visits

variable {start : Disk}

/-- What becomes of a commit that is not cut short. -/
def fateOf {α : Type} : Except Raised α → Fate
  | .ok _ => .returned
  | .error _ => .raised

theorem Runs.commits {fate : Fate} {outcome : Except Raised Json × Disk}
    (runs : layout.Runs modes start log disk) (owns : layout.Owns transaction)
    (ran : (project.commit modes transaction retain).run
      (Disk.serve project.host.entropy) disk = outcome) (fated : fateOf outcome.1 = fate) :
    layout.Runs modes start (log ++ [(fate, project.batch transaction)]) outcome.2 := by
  obtain ⟨outcome | journal, final⟩ := outcome
  · rw [← fated]
    exact .raises transaction retain owns runs ran
  · rw [← fated]
    exact .returns transaction retain owns runs ran

/-! ## What holds at any time -/

/-- A layout with two managed files. -/
def labLayout : Layout labProject where
  stateDir := [text "s"]
  name := text "A"
  managed path := path ∈ [[text "a"], [text "b"]]
  known bytes := bytes ∈ [[120], [121], [122]]
  rooted := Attempt.labAttempt.rooted
  reads := Attempt.labAttempt.reads
  distinct first second known known' := by
    have apart : ∀ first ∈ [[120], [121], [122]], ∀ second ∈ [[120], [121], [122]],
        labProject.host.sha256 first = labProject.host.sha256 second → first = second := by
      decide +kernel
    exact apart first known second known'
  uuids tick := by
    rw [encodable, List.all_eq_true]
    intro letter member
    have bound := Nat.mod_lt tick (show 0 < 10 by decide)
    rw [List.eq_of_mem_replicate member]
    simp [Fin.ofNat]
    omega
  named := by decide
  writable := by decide
  lasting := not_temporary (by decide)
  outside := by decide
  apart path other managed managed' := by
    have apart : ∀ path ∈ [[text "a"], [text "b"]], ∀ other ∈ [[text "a"], [text "b"]],
        ¬ path <+: other.dropLast := by decide
    exact apart path managed other managed'
  permanent path managed := by
    obtain ⟨one, member, path⟩ := List.mem_map.mp
      (show path ∈ Attempt.labAttempt.prepared.map PreparedFile.path from managed)
    rw [← path]
    exact Attempt.labAttempt.lasting one member

/-- A transaction on the two files: what it makes of them. -/
def labTransaction (first second : Option Bytes) (fault : FaultHook) : FileTransaction where
  mutations := [⟨text "a", first, none, none, none⟩, ⟨text "b", second, none, none, none⟩]
  stateDir := [text "s"]
  name := text "A"
  fault := fault

theorem owns_lab {first second : Option Bytes} (fault : FaultHook)
    (known : ∀ data ∈ [first, second], ∀ bytes ∈ data, bytes ∈ [[120], [121], [122]]) :
    labLayout.Owns (labTransaction first second fault) := by
  have home : labProject.transactionPath "transaction journal" (text "s") = .ok [text "s"] := by
    decide +kernel
  have paths : ∀ path ∈ [text "a", text "b"],
      labProject.transactionPath "transaction destination" path = .ok [path] := by
    decide +kernel
  refine owns_of_fileTransaction home ?_ ?_
    (show labProject.fileTransaction (labTransaction first second fault).mutations (text "s")
      (text "A") fault = .ok (labTransaction first second fault) by
        rw [Project.fileTransaction, home]
        rfl)
  · intro mutation member path confined
    simp only [labTransaction, List.mem_cons, List.not_mem_nil, or_false] at member
    rcases member with rfl | rfl
    · rw [paths _ (by simp)] at confined
      cases confined
      exact List.mem_cons_self
    · rw [paths _ (by simp)] at confined
      cases confined
      exact List.mem_cons_of_mem _ List.mem_cons_self
  · intro mutation member
    simp only [labTransaction, List.mem_cons, List.not_mem_nil, or_false] at member
    rcases member with rfl | rfl
    · exact known first List.mem_cons_self
    · exact known second (by simp)

/-- `a` holds `x`, and `b` is not there. -/
def labStart : Disk := ⟨Attempt.labFiles, 0⟩

theorem settled_lab : labLayout.Settled labStart.files where
  home := Attempt.labAttempt.home.1
  idle := Attempt.labAttempt.settled
  clear path managed := by
    obtain ⟨one, member, path⟩ := List.mem_map.mp
      (show path ∈ Attempt.labAttempt.prepared.map PreparedFile.path from managed)
    rw [← path]
    exact Attempt.labAttempt.clear one member
  known path managed := by
    have holds : ∀ path ∈ [[text "a"], [text "b"]], ∀ bytes ∈ labStart.files.contents? path,
        bytes ∈ [[120], [121], [122]] := by decide
    exact holds path managed

/-- The caller does nothing. -/
def labQuiet : FaultHook := fun _ _ => .ok ()

/-- The caller raises between the two destinations. -/
def labFault : FaultHook := fun stage journal =>
  if stage = text "before_destination" ∧ journal.get "applied" = .int 1 then
    .error (runtimeError "fault")
  else .ok ()

/-- A commit. -/
def labCommit (transaction : FileTransaction) (retain : Bool) : FileProgram Json :=
  labProject.commit (fun _ _ => 0o644) transaction retain

/-- Writes `y` and `z`. -/
def labFirst : FileTransaction := labTransaction (some [121]) (some [122]) labQuiet

/-- Would write `z`, and raises before it deletes the other file. -/
def labSecond : FileTransaction := labTransaction (some [122]) none labFault

/-- Deletes one file and writes `x` to the other. -/
def labThird : FileTransaction := labTransaction none (some [120]) labQuiet

theorem owns_labFirst : labLayout.Owns labFirst := owns_lab _ (by decide)

theorem owns_labSecond : labLayout.Owns labSecond := owns_lab _ (by decide)

theorem owns_labThird : labLayout.Owns labThird := owns_lab _ (by decide)

/-- What a program gives and leaves. -/
def labRun {α : Type} (program : FileProgram α) (disk : Disk) : Except Raised α × Disk :=
  program.run (Disk.serve labProject.host.entropy) disk

/-- The disk at the first moment of a program at which its files are as given. -/
def labCut {α : Type} (program : FileProgram α) (disk : Disk) (holds : FileSystem → Bool) :
    Disk :=
  ((program.cuts (Disk.serve labProject.host.entropy) disk).find? fun cut =>
    holds cut.files).getD disk

theorem visits_labCut {α : Type} (program : FileProgram α) (disk : Disk)
    (holds : FileSystem → Bool) :
    Program.Visits (Disk.serve labProject.host.entropy) program disk
      (labCut program disk holds) := by
  unfold labCut
  cases found : List.find? _ _ with
  | none => exact Program.visits_start program
  | some cut => exact Program.visits_of_mem_cuts (List.mem_of_find?_eq_some found)

/-- The first commit, cut short between its two destinations. -/
def labTorn : Disk :=
  labCut (labCommit labFirst true) labStart fun files =>
    files.contents? [text "a"] == some [121] && files.contents? [text "b"] == none

theorem labTorn_holds : labTorn.files.contents? [text "a"] = some [121] ∧
    labTorn.files.contents? [text "b"] = none := by
  decide +kernel

theorem labRuns_torn : labLayout.Runs (fun _ _ => 0o644) labStart
    [(.cut, labProject.batch labFirst)] labTorn :=
  .cut labFirst true owns_labFirst .start (visits_labCut _ _ _)

/-- What a recovery gives and leaves of the commit that was cut short. -/
def labRecovered : Except Raised (List Json) × Disk := labRun labLayout.recovery labTorn

theorem labRecovered_holds : labRecovered.1.isOk = true ∧
    labRecovered.2.files.contents? [text "a"] = some [120] ∧
    labRecovered.2.files.contents? [text "b"] = none := by
  decide +kernel

/-- What the three commits give and leave, one after another. -/
def labOne : Except Raised Json × Disk := labRun (labCommit labFirst true) labStart

def labTwo : Except Raised Json × Disk := labRun (labCommit labSecond true) labOne.2

def labThree : Except Raised Json × Disk := labRun (labCommit labThird true) labTwo.2

/-- The recovery that removes the last journal, cut short when the journal is gone. -/
def labRemoving : Disk :=
  labCut labLayout.recovery labThree.2 fun files =>
    (files.names [text "s"]).all fun name => files.isEmpty [text "s", name]

theorem labThree_fates : fateOf labOne.1 = .returned ∧ fateOf labTwo.1 = .raised ∧
    fateOf labThree.1 = .returned ∧ (labRemoving.files.names [text "s"]).length = 1 := by
  decide +kernel

theorem labRuns_removing : labLayout.Runs (fun _ _ => 0o644) labStart
    [(.returned, labProject.batch labFirst), (.raised, labProject.batch labSecond),
      (.returned, labProject.batch labThird)] labRemoving := by
  obtain ⟨first, second, third, _⟩ := labThree_fates
  have one := Runs.start.commits owns_labFirst
    (show labRun (labCommit labFirst true) labStart = labOne from rfl) first
  have two := one.commits owns_labSecond
    (show labRun (labCommit labSecond true) labOne.2 = labTwo from rfl) second
  have three := two.commits owns_labThird
    (show labRun (labCommit labThird true) labTwo.2 = labThree from rfl) third
  exact .recovers three (visits_labCut _ _ _)

theorem labCommits_end : (labRun (labCommit labFirst false) labStart).1.isOk = true ∧
    (labRun (labCommit labSecond false) labStart).1.isOk = false := by
  decide +kernel

/-- A recovery that returns at any time of a run leaves the managed files as all batches that
returned made them, and some that were cut short, one after another. -/
theorem Runs.recovered {final : Disk} {recovered : List Json}
    (runs : layout.Runs modes start log disk) (settled : layout.Settled start.files)
    (ran : layout.recovery.run (Disk.serve project.host.entropy) disk = (.ok recovered, final)) :
    layout.Settled final.files ∧
      BatchOutcome layout.apply (layout.store start.files) log (layout.store final.files) := by
  have ends := (runs.reached settled).meets_recovery.2
  rw [ran] at ends
  exact ends recovered rfl

theorem runs_recovered_lab : labRecovered.2.files.contents? [text "a"] = some [120] ∧
    labRecovered.2.files.contents? [text "b"] = none ∧
    labLayout.Settled labRecovered.2.files ∧
      BatchOutcome labLayout.apply (labLayout.store labStart.files)
        [(.cut, labProject.batch labFirst)] (labLayout.store labRecovered.2.files) := by
  obtain ⟨returned, first, second⟩ := labRecovered_holds
  refine ⟨first, second, ?_⟩
  rcases ran : labRecovered with ⟨raised | recovered, final⟩
  · rw [ran] at returned
    cases returned
  · exact Runs.recovered labRuns_torn settled_lab ran

/-- A run in which no commit was cut short has carried out the batches that returned, in their
order. -/
theorem Runs.serial (runs : layout.Runs modes start log disk)
    (settled : layout.Settled start.files) (uncut : ∀ entry ∈ log, entry.1 ≠ .cut) :
    layout.store disk.files = (returnedBatches log).foldl
      (fun store batch => layout.apply batch store) (layout.store start.files) := by
  obtain ⟨attempt, hosts, torn, possible⟩ := runs.reached settled
  rcases possible with ⟨left, done⟩ | ⟨kept, left⟩ | ⟨kept, done⟩
  · funext path
    rw [← left.eq_foldl uncut]
    rcases store_of_torn hosts torn path with is | is
    · exact is
    · rw [is, done.eq_foldl uncut, ← left.eq_foldl uncut]
  · have before := kept.settled
    rw [if_neg (by simp)] at before
    rw [store_of_before hosts torn before]
    exact left.eq_foldl uncut
  · have after := kept.settled
    rw [if_pos rfl] at after
    rw [store_of_after hosts torn after]
    exact done.eq_foldl uncut

theorem runs_serial_lab : labLayout.store labRemoving.files =
    labLayout.apply (labProject.batch labThird)
      (labLayout.apply (labProject.batch labFirst) (labLayout.store labStart.files)) :=
  Runs.serial labRuns_removing settled_lab (by simp)

end Layout

end

end CarbonLab.Aegis
