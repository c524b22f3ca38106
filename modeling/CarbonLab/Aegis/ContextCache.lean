import CarbonLab.Aegis.ConfinedPath
import CarbonLab.Aegis.ContentDigest
import CarbonLab.Aegis.Redaction
import CarbonLab.Lib.Inodes
import CarbonLab.Lib.Transition
import CarbonLab.Lib.Utf8

/-!
# The context cache

`record_file` and `check_file` of `context_cache.py` for files of a tree with symbolic links.
Nothing else changes while one of them runs.  The ledger is what its file holds of the kind
`file`; the time of an entry is left out.
-/

namespace CarbonLab.Aegis

namespace ContextCache

open LinkTree Confine

/-! ## Files -/

/-- What `os.lstat` says of a place, but for its kind. -/
structure FileStat where
  size : ℕ
  mtimeNs : ℕ
  ctimeNs : ℕ
  inode : ℕ
  device : ℕ
  deriving DecidableEq, Repr

/-- A tree with what its files hold. -/
structure SourceDisk where
  tree : LinkTree
  stats : Location → FileStat
  contents : Location → Bytes

/-- What the functions raise. -/
inductive Fault
  | confine (fault : ConfineFault)
  | lookup (fault : LookupFault)
  | isADirectory
  | unicodeEncodeError
  | runtimeError (message : Text)
  deriving DecidableEq, Repr

/-- An error of the system. -/
def ofSystem {α : Type} : Except LookupFault α → Except Fault α
  | .ok value => .ok value
  | .error fault => .error (.lookup fault)

/-- An error of `confined_path`. -/
def ofConfine {α : Type} : Except ConfineFault α → Except Fault α
  | .ok value => .ok value
  | .error fault => .error (.confine fault)

/-- `str(path)` -/
def pathText (path : PurePath) : Text :=
  match path.anchor with
  | .relative => if path.parts = [] then text "." else joinParts path.parts
  | .slash => code '/' :: joinParts path.parts
  | .doubleSlash => code '/' :: code '/' :: joinParts path.parts

/-- What a name means in a directory, no link followed. -/
def placeBelow (parent : Location) (name : Text) : Location :=
  if name = [] ∨ name = text "." then parent
  else if name = text ".." then parent.dropLast
  else parent ++ [name]

namespace SourceDisk

variable (disk : SourceDisk)

/-- The place that a path names, its last name not followed. -/
def entryPlace (path : List Text) : Except LookupFault Location :=
  match path.getLast? with
  | none => .ok []
  | some name => do
      let parent ← disk.tree.follow linkLimit [] path.dropLast
      if disk.tree.node parent ≠ some .directory then .error .notDirectory
      else if disk.tree.node (placeBelow parent name) = none then .error .notFound
      else .ok (placeBelow parent name)

/-- What a path names, its last name not followed. -/
def entry (path : List Text) : Except LookupFault (Location × LinkNode) := do
  let place ← disk.entryPlace path
  match disk.tree.node place with
  | some node => .ok (place, node)
  | none => .error .notFound

/-- `path.is_symlink()` -/
def isSymlink (path : List Text) : Bool :=
  match disk.entry path with
  | .ok (_, .symlink _) => true
  | _ => false

/-- `path.exists()` -/
def exists_ (path : List Text) : Bool :=
  match disk.tree.stat path with
  | .ok _ => true
  | .error _ => false

/-- What `open(path, "rb").read()` gives: links are followed. -/
def readBytes (path : List Text) : Except Fault Bytes := do
  let place ← ofSystem (disk.tree.follow linkLimit [] path)
  match disk.tree.node place with
  | some .file => .ok (disk.contents place)
  | some _ => .error .isADirectory
  | none => .error (.lookup .notFound)

end SourceDisk

/-! ## Fingerprints -/

/-- What `_stat_identity` returns. -/
structure Identity where
  stat : FileStat
  symlinkTarget : Option Text
  deriving DecidableEq, Repr

section

variable (sha256 : Bytes → Text) (disk : SourceDisk) (path : List Text)

/-- `_stat_identity` -/
def statIdentity : Except Fault Identity := do
  let (place, node) ← ofSystem (disk.entry path)
  match node with
  | .symlink target => .ok ⟨disk.stats place, some (pathText (.ofText target))⟩
  | _ => .ok ⟨disk.stats place, none⟩

/-- `sha256_file(path)`, or the SHA-256 of `str(path.readlink()).encode()` for a link. -/
def digestOf : Except Fault Text :=
  match disk.entry path with
  | .ok (_, .symlink target) =>
      let linkText := pathText (.ofText target)
      if linkText.all fun letter => letter.val < 0xd800 ∨ 0xe000 ≤ letter.val then
        .ok (sha256 (encode linkText))
      else .error .unicodeEncodeError
  | _ => sha256 <$> disk.readBytes path

/-- The tries of `_consistent_digest`. -/
def tryDigest : (tries : ℕ) → Except Fault (Text × Identity)
  | 0 => .error (.runtimeError (text "context source changed while it was being fingerprinted"))
  | tries + 1 => do
      let before ← statIdentity disk path
      let digest ← digestOf sha256 disk path
      let middle ← statIdentity disk path
      if before ≠ middle then tryDigest tries
      else
        let confirm ← digestOf sha256 disk path
        let after ← statIdentity disk path
        if middle = after ∧ digest = confirm then return (digest, after) else tryDigest tries

/-- `_consistent_digest` -/
def consistentDigest : Except Fault (Text × Identity) := tryDigest sha256 disk path 3

end

/-! ## The ledger -/

/-- A recorded dependency. -/
structure Dependency where
  path : Location
  sha256 : Text
  stat : Identity
  deriving DecidableEq, Repr

/-- An entry of the kind `file`; its key is its path. -/
structure Entry where
  sha256 : Text
  stat : Identity
  dependencies : List Dependency
  conclusion : Text
  deriving DecidableEq, Repr

/-- `data["sources"]` -/
abbrev Ledger := List (Location × Entry)

/-- `data["sources"][key] = entry` -/
def Ledger.set (ledger : Ledger) (key : Location) (entry : Entry) : Ledger :=
  (key, entry) :: ledger.filter (·.1 != key)

section

variable (sha256 : Bytes → Text) (host : Host) (root : PurePath) (disk : SourceDisk)

/-- `self._confined(path)`, and `confined_path(self.root, path, reject_symlinks=False)` where the
path may be missing. -/
def confined (mustExist : Bool) (value : PurePath) : Except Fault Location :=
  ofConfine (confinedPath disk.tree root value mustExist false false)

/-- The first loop of `record_file`. -/
def recordDependencies : List PurePath → Except Fault (List Dependency)
  | [] => .ok []
  | value :: rest => do
      let path ← confined root disk true value
      let (digest, identity) ← consistentDigest sha256 disk path
      let later ← recordDependencies rest
      return ⟨path, digest, identity⟩ :: later

/-- The second loop of `record_file`. -/
def confirmDependencies : List Dependency → Except Fault Unit
  | [] => .ok ()
  | dependency :: rest => do
      let (digest, identity) ← consistentDigest sha256 disk dependency.path
      if digest ≠ dependency.sha256 ∨ identity ≠ dependency.stat then
        .error (.runtimeError (text "context dependency changed before cache commit"))
      else confirmDependencies rest

/-- `record_file`, with the key of what it records. -/
def recordFile (value : PurePath) (conclusion : Text) (dependencies : List PurePath) :
    Except Fault (Location × Entry) := do
  let path ← confined root disk true value
  let records ← recordDependencies sha256 root disk dependencies
  let (digest, identity) ← consistentDigest sha256 disk path
  let (commitDigest, commitIdentity) ← consistentDigest sha256 disk path
  if commitIdentity ≠ identity ∨ commitDigest ≠ digest then
    .error (.runtimeError (text "context source changed before cache commit"))
  else
    confirmDependencies sha256 disk records
    return (path, ⟨digest, identity, records, host.redactText conclusion⟩)

/-- What `check_file` returns. -/
inductive Report
  | unknown
  | missing
  /-- `"verified_by": "unchanged-filesystem-identity"` -/
  | unchanged (entry : Entry)
  /-- `"verified_by": "content-hash"` -/
  | hashed (entry : Entry) (digest : Text) (dependenciesFresh : Bool)
  deriving DecidableEq, Repr

/-- `report["fresh"]` -/
def Report.fresh : Report → Bool
  | .unknown | .missing => false
  | .unchanged _ => true
  | .hashed entry digest dependenciesFresh => digest = entry.sha256 && dependenciesFresh

/-- `report["conclusion"]` -/
def Report.conclusion : Report → Option Text
  | .unknown | .missing => none
  | .unchanged entry | .hashed entry _ _ => some entry.conclusion

/-- The loop of `check_file` over dependencies. -/
def dependenciesFresh : List Dependency → Except Fault Bool
  | [] => .ok true
  | dependency :: rest => do
      let path ← confined root disk false ⟨.slash, dependency.path⟩
      if disk.exists_ path = false then return false
      else
        let identity ← statIdentity disk path
        if identity ≠ dependency.stat then return false else dependenciesFresh rest

/-- `check_file` -/
def checkFile (ledger : Ledger) (value : PurePath) : Except Fault Report := do
  let path ← confined root disk false value
  match ledger.lookup path with
  | none => return .unknown
  | some old =>
      if disk.exists_ path = false ∧ disk.isSymlink path = false then return .missing
      else
        let current ← statIdentity disk path
        let fresh ← dependenciesFresh root disk old.dependencies
        if current = old.stat ∧ fresh = true then return .unchanged old
        else
          let (digest, _) ← consistentDigest sha256 disk path
          return .hashed old digest fresh

end

/-! ## Paths that are no links -/

section

variable {tree : LinkTree} {place middle found : Location} {names rest path : List Text}

/-- Behind a place from which the rest of a path meets no link. -/
theorem follow_append_of_direct {links : ℕ} (come : tree.follow links place names = .ok middle)
    (direct : ∀ links, tree.follow links middle rest = .ok found) :
    tree.follow links place (names ++ rest) = .ok found := by
  have step {jump : Location → List Text → Except LookupFault Location}
      (jumps : ∀ place names, jump place names = .ok middle → jump place (names ++ rest) = .ok found)
      (behind : tree.followWith jump middle rest = .ok found) {place : Location} {names : List Text}
      (come : tree.followWith jump place names = .ok middle) :
      tree.followWith jump place (names ++ rest) = .ok found := by
    induction names generalizing place with
    | nil =>
        cases come
        exact behind
    | cons name names ih =>
        rw [followWith] at come
        rw [List.cons_append, followWith]
        split at come
        · cases come
        · next inside =>
            rw [if_neg inside]
            split at come
            · next dot =>
                rw [if_pos dot]
                exact ih come
            · next noDot =>
                rw [if_neg noDot]
                split at come
                · next parent =>
                    rw [if_pos parent]
                    exact ih come
                · next noParent =>
                    rw [if_neg noParent]
                    split at come
                    · cases come
                    · rw [← List.append_assoc]
                      exact jumps _ _ come
                    · exact ih come
  induction links generalizing place names with
  | zero => exact step (fun _ _ impossible => by cases impossible) (direct 0) come
  | succ links ih => exact step (fun _ _ jumped => ih jumped) (direct (links + 1)) come

variable {disk : SourceDisk} {node : LinkNode}

theorem node_of_entry (named : disk.entry path = .ok (place, node)) :
    disk.entryPlace path = .ok place ∧ disk.tree.node place = some node := by
  rw [SourceDisk.entry] at named
  obtain ⟨other, come, named⟩ := bind_eq_ok.mp named
  cases there : disk.tree.node other with
  | none =>
      rw [there] at named
      cases named
  | some found =>
      rw [there] at named
      cases named
      exact ⟨come, there⟩

/-- The system comes to a last name that is no link. -/
theorem follow_of_entry (named : disk.entry path = .ok (place, node))
    (direct : ∀ target, node ≠ .symlink target) :
    disk.tree.follow linkLimit [] path = .ok place := by
  obtain ⟨come, there⟩ := node_of_entry named
  rcases List.eq_nil_or_concat path with rfl | ⟨parents, name, rfl⟩
  · exact come
  · rw [List.concat_eq_append] at come ⊢
    rw [SourceDisk.entryPlace, List.getLast?_concat, List.dropLast_concat] at come
    obtain ⟨parent, before, come⟩ := bind_eq_ok.mp come
    split at come
    · cases come
    · next directory =>
        split at come
        · cases come
        · have same := Except.ok.inj come
          apply follow_append_of_direct before
          intro links
          have last (jump : Location → List Text → Except LookupFault Location) :
              disk.tree.followWith jump parent [name] = .ok place := by
            rw [followWith, if_neg directory]
            unfold placeBelow at same
            by_cases dot : name = [] ∨ name = text "."
            · rw [if_pos dot] at same ⊢
              rw [← same]
              rfl
            · rw [if_neg dot] at same ⊢
              by_cases up : name = text ".."
              · rw [if_pos up] at same ⊢
                rw [← same]
                rfl
              · rw [if_neg up] at same ⊢
                rw [same, there]
                cases node with
                | symlink target => exact absurd rfl (direct target)
                | file => rfl
                | directory => rfl
          cases links with
          | zero => exact last _
          | succ links => exact last _

/-- What stands at a path is no link, and stands at this place. -/
def SourceDisk.Direct (disk : SourceDisk) (path : List Text) (place : Location) : Prop :=
  ∃ node, disk.entry path = .ok (place, node) ∧ ∀ target, node ≠ .symlink target

/-- What the file at a place holds. -/
def SourceDisk.held (disk : SourceDisk) (place : Location) : Option Bytes :=
  if disk.tree.node place = some .file then some (disk.contents place) else none

theorem readBytes_of_direct (direct : disk.Direct path place) :
    disk.readBytes path =
      match disk.held place with
      | some bytes => .ok bytes
      | none => .error .isADirectory := by
  obtain ⟨node, named, noLink⟩ := direct
  have come := follow_of_entry named noLink
  have there := (node_of_entry named).2
  rw [SourceDisk.readBytes, come, SourceDisk.held, there]
  cases node with
  | symlink target => exact absurd rfl (noLink target)
  | directory => simp [ofSystem, there]
  | file => simp [ofSystem, there]

theorem statIdentity_of_direct (direct : disk.Direct path place) :
    statIdentity disk path = .ok ⟨disk.stats place, none⟩ := by
  obtain ⟨node, named, noLink⟩ := direct
  rw [statIdentity, named]
  cases node with
  | symlink target => exact absurd rfl (noLink target)
  | directory => rfl
  | file => rfl

/-- A fingerprint without a link text is that of something that is no link. -/
theorem direct_of_statIdentity {stat : FileStat}
    (seen : statIdentity disk path = .ok ⟨stat, none⟩) :
    ∃ place, disk.Direct path place ∧ disk.stats place = stat := by
  rw [statIdentity] at seen
  obtain ⟨⟨place, node⟩, named, seen⟩ := bind_eq_ok.mp seen
  cases found : disk.entry path with
  | error fault =>
      rw [found] at named
      cases named
  | ok both =>
      rw [found] at named
      cases named
      cases node with
      | symlink target => cases seen
      | directory =>
          cases seen
          exact ⟨place, ⟨.directory, found, fun target => LinkNode.noConfusion⟩, rfl⟩
      | file =>
          cases seen
          exact ⟨place, ⟨.file, found, fun target => LinkNode.noConfusion⟩, rfl⟩

/-- What can be fingerprinted and is no link. -/
theorem direct_of_isSymlink {identity : Identity} (seen : statIdentity disk path = .ok identity)
    (noLink : disk.isSymlink path = false) : ∃ place, disk.Direct path place := by
  rw [statIdentity] at seen
  obtain ⟨⟨place, node⟩, named, -⟩ := bind_eq_ok.mp seen
  cases found : disk.entry path with
  | error fault =>
      rw [found] at named
      cases named
  | ok both =>
      rw [found] at named
      cases named
      refine ⟨place, node, found, fun target same => ?_⟩
      rw [same] at found
      rw [SourceDisk.isSymlink, found] at noLink
      cases noLink

theorem digestOf_of_direct (sha256 : Bytes → Text) (direct : disk.Direct path place) :
    digestOf sha256 disk path = sha256 <$> disk.readBytes path := by
  obtain ⟨node, named, noLink⟩ := direct
  rw [digestOf, named]
  cases node with
  | symlink target => exact absurd rfl (noLink target)
  | directory => rfl
  | file => rfl

/-- A consistent digest is the digest of what stands there, beside its fingerprint. -/
theorem of_consistentDigest {sha256 : Bytes → Text} {digest : Text} {identity : Identity}
    (read : consistentDigest sha256 disk path = .ok (digest, identity)) :
    digestOf sha256 disk path = .ok digest ∧ statIdentity disk path = .ok identity := by
  have once (tries : ℕ) (read : tryDigest sha256 disk path tries = .ok (digest, identity)) :
      digestOf sha256 disk path = .ok digest ∧ statIdentity disk path = .ok identity := by
    induction tries with
    | zero => cases read
    | succ tries ih =>
        rw [tryDigest] at read
        obtain ⟨before, seen, read⟩ := bind_eq_ok.mp read
        obtain ⟨found, digested, read⟩ := bind_eq_ok.mp read
        rw [seen, ok_bind, if_neg (not_not.mpr rfl), digested, ok_bind, ok_bind,
          if_pos ⟨rfl, rfl⟩] at read
        cases read
        exact ⟨digested, seen⟩
  exact once 3 read

/-- The bytes behind a digest of something that is no link. -/
theorem readBytes_of_digest {sha256 : Bytes → Text} {digest : Text} {identity : Identity}
    (direct : disk.Direct path place)
    (read : consistentDigest sha256 disk path = .ok (digest, identity)) :
    ∃ bytes, disk.readBytes path = .ok bytes ∧ sha256 bytes = digest := by
  have digested := (of_consistentDigest read).1
  rw [digestOf_of_direct sha256 direct] at digested
  cases found : disk.readBytes path with
  | error fault =>
      rw [found] at digested
      cases digested
  | ok bytes =>
      rw [found] at digested
      exact ⟨bytes, rfl, Except.ok.inj digested⟩

end

/-! ## Runs -/

/-- The file system and the ledger, with the disk that each entry was recorded on. -/
structure Situation where
  disk : SourceDisk
  ledger : Ledger
  origin : Location → Option SourceDisk

/-- Before anything is recorded. -/
def Situation.fresh (disk : SourceDisk) : Situation := ⟨disk, [], fun _ => none⟩

/-- What happens to them. -/
inductive Event
  | change (disk : SourceDisk)
  | record (value : PurePath) (conclusion : Text) (dependencies : List PurePath)

section

variable (sha256 : Bytes → Text) (host : Host) (root : PurePath)

/-- One event; a call of `record_file` that raises leaves the ledger. -/
def happen (now : Situation) : Event → Option Situation
  | .change disk => some { now with disk := disk }
  | .record value conclusion dependencies =>
      match recordFile sha256 host root now.disk value conclusion dependencies with
      | .ok (key, entry) =>
          some ⟨now.disk, now.ledger.set key entry, Function.update now.origin key (some now.disk)⟩
      | .error _ => some now

/-- The file systems that come about, on which any files are recorded. -/
def AnyRecord (arises : SourceDisk → Prop) (_ : Situation) : Event → Prop
  | .change disk => arises disk
  | .record _ _ _ => True

/-- No symbolic link stands where a path is confined to. -/
def NoLinkAt (disk : SourceDisk) (mustExist : Bool) (value : PurePath) : Prop :=
  ∀ path, confined root disk mustExist value = .ok path → disk.isSymlink path = false

/-- What is recorded, and what it depends on, are no links. -/
def DirectRecord (arises : SourceDisk → Prop) (now : Situation) : Event → Prop
  | .change disk => arises disk
  | .record value _ dependencies => ∀ given ∈ value :: dependencies, NoLinkAt root now.disk true given

/-- Equal stat identity implies equal file content. -/
def StatTells (arises : SourceDisk → Prop) : Prop :=
  ∀ first second, arises first → arises second → ∀ path place path' place',
    first.Direct path place → second.Direct path' place' →
      first.stats place = second.stats place' → first.held place = second.held place'

/-- Whenever `check_file` reports fresh, the file and all dependencies are read as they were when
the conclusion was recorded that it returns. -/
def SoundlyFresh (now : Situation) (value : PurePath) : Prop :=
  ∀ report, checkFile sha256 root now.disk now.ledger value = .ok report → report.fresh = true →
    ∃ path entry origin, confined root now.disk false value = .ok path ∧
      now.ledger.lookup path = some entry ∧ report.conclusion = some entry.conclusion ∧
      now.origin path = some origin ∧
      now.disk.readBytes path = origin.readBytes path ∧
      ∀ dependency ∈ entry.dependencies, ∃ there,
        confined root now.disk false ⟨.slash, dependency.path⟩ = .ok there ∧
        now.disk.readBytes there = origin.readBytes dependency.path

end

section

variable {sha256 : Bytes → Text} {host : Host} {root : PurePath} {disk origin : SourceDisk}
  {arises : SourceDisk → Prop} {path key : Location} {entry : Entry}

/-- An entry was recorded on a disk where neither its file nor a dependency is a link. -/
structure RecordedOn (sha256 : Bytes → Text) (origin : SourceDisk) (path : Location)
    (entry : Entry) : Prop where
  file : consistentDigest sha256 origin path = .ok (entry.sha256, entry.stat)
  noLink : origin.isSymlink path = false
  dependencies : ∀ dependency ∈ entry.dependencies,
    consistentDigest sha256 origin dependency.path = .ok (dependency.sha256, dependency.stat) ∧
      origin.isSymlink dependency.path = false

theorem mem_recordDependencies {given : List PurePath} {records : List Dependency}
    (recorded : recordDependencies sha256 root disk given = .ok records) {dependency : Dependency}
    (member : dependency ∈ records) :
    ∃ value ∈ given, confined root disk true value = .ok dependency.path ∧
      consistentDigest sha256 disk dependency.path = .ok (dependency.sha256, dependency.stat) := by
  induction given generalizing records with
  | nil =>
      cases recorded
      cases member
  | cons value rest ih =>
      rw [recordDependencies] at recorded
      obtain ⟨place, here, recorded⟩ := bind_eq_ok.mp recorded
      obtain ⟨⟨digest, identity⟩, read, recorded⟩ := bind_eq_ok.mp recorded
      obtain ⟨later, behind, recorded⟩ := bind_eq_ok.mp recorded
      cases recorded
      rcases List.mem_cons.mp member with rfl | inside
      · exact ⟨value, List.mem_cons_self, here, read⟩
      · obtain ⟨other, given, found⟩ := ih behind inside
        exact ⟨other, List.mem_cons_of_mem _ given, found⟩

/-- What `record_file` records of paths that are no links. -/
theorem recordedOn_of_recordFile {value : PurePath} {conclusion : Text}
    {dependencies : List PurePath}
    (direct : ∀ given ∈ value :: dependencies, NoLinkAt root disk true given)
    (recorded : recordFile sha256 host root disk value conclusion dependencies = .ok (key, entry)) :
    RecordedOn sha256 disk key entry := by
  rw [recordFile] at recorded
  obtain ⟨path, place, recorded⟩ := bind_eq_ok.mp recorded
  obtain ⟨records, below, recorded⟩ := bind_eq_ok.mp recorded
  obtain ⟨⟨digest, identity⟩, read, recorded⟩ := bind_eq_ok.mp recorded
  obtain ⟨⟨commitDigest, commitIdentity⟩, again, recorded⟩ := bind_eq_ok.mp recorded
  dsimp only at recorded
  split at recorded
  · cases recorded
  · obtain ⟨-, -, recorded⟩ := bind_eq_ok.mp recorded
    cases recorded
    refine ⟨read, direct value List.mem_cons_self _ place, fun dependency member => ?_⟩
    obtain ⟨given, inside, found, digested⟩ := mem_recordDependencies below member
    exact ⟨digested, direct given (List.mem_cons_of_mem _ inside) _ found⟩

theorem lookup_set {ledger : Ledger} (key path : Location) (entry : Entry) :
    (ledger.set key entry).lookup path = if path = key then some entry else ledger.lookup path := by
  rw [Ledger.set, List.lookup_cons]
  by_cases same : path = key
  · rw [if_pos same, same, beq_self_eq_true]
  · rw [if_neg same, beq_false_of_ne same]
    dsimp only
    rw [lookup_filter_bne, if_neg (by rwa [beq_iff_eq])]

/-- Every entry was recorded directly, on a disk that came about. -/
def Traced (sha256 : Bytes → Text) (arises : SourceDisk → Prop) (now : Situation) : Prop :=
  arises now.disk ∧ ∀ path entry, now.ledger.lookup path = some entry →
    ∃ origin, now.origin path = some origin ∧ arises origin ∧ RecordedOn sha256 origin path entry

theorem happen_traced {now next : Situation} {event : Event} (traced : Traced sha256 arises now)
    (permitted : DirectRecord root arises now event)
    (taken : happen sha256 host root now event = some next) : Traced sha256 arises next := by
  cases event with
  | change disk =>
      cases taken
      exact ⟨permitted, traced.2⟩
  | record value conclusion dependencies =>
      rw [happen] at taken
      split at taken
      · next key entry recorded =>
          cases taken
          refine ⟨traced.1, fun path other found => ?_⟩
          dsimp only at found ⊢
          rw [lookup_set] at found
          by_cases same : path = key
          · rw [if_pos same] at found
            cases found
            rw [same, Function.update_self]
            exact ⟨_, rfl, traced.1, recordedOn_of_recordFile permitted recorded⟩
          · rw [if_neg same] at found
            rw [Function.update_of_ne same]
            exact traced.2 path other found
      · cases taken
        exact traced

theorem traced_of_run {start : SourceDisk} (begins : arises start) {now : Situation}
    (run : Transition.Reachable (happen sha256 host root) (DirectRecord root arises)
      (Situation.fresh start) now) : Traced sha256 arises now := by
  apply run.invariant
  · exact ⟨begins, fun path entry found => by cases found⟩
  · intro state event next traced permitted taken
    exact happen_traced traced permitted taken

/-! ## Freshness -/

/-- What still has the fingerprint that it had as no link is read as before. -/
theorem readBytes_of_statIdentity (tells : StatTells arises) (now : arises disk)
    (before : arises origin) {there : Location} {identity : Identity}
    (noLink : origin.isSymlink path = false) (recorded : statIdentity origin path = .ok identity)
    (seen : statIdentity disk there = .ok identity) :
    disk.readBytes there = origin.readBytes path := by
  obtain ⟨place, direct⟩ := direct_of_isSymlink recorded noLink
  rw [statIdentity_of_direct direct] at recorded
  rw [← Except.ok.inj recorded] at seen
  obtain ⟨other, direct', sameStat⟩ := direct_of_statIdentity seen
  have held := tells _ _ now before _ _ _ _ direct' direct sameStat
  rw [readBytes_of_direct direct, readBytes_of_direct direct', held]

/-- What has the digest that it had, both times as no link, is read as before. -/
theorem readBytes_of_sameDigest (injective : Function.Injective sha256) {digest : Text}
    {identity identity' : Identity} (noLink : origin.isSymlink path = false)
    (noLink' : disk.isSymlink path = false)
    (recorded : consistentDigest sha256 origin path = .ok (digest, identity))
    (seen : consistentDigest sha256 disk path = .ok (digest, identity')) :
    disk.readBytes path = origin.readBytes path := by
  obtain ⟨place, direct⟩ := direct_of_isSymlink (of_consistentDigest recorded).2 noLink
  obtain ⟨other, direct'⟩ := direct_of_isSymlink (of_consistentDigest seen).2 noLink'
  obtain ⟨bytes, read, digested⟩ := readBytes_of_digest direct recorded
  obtain ⟨bytes', read', digested'⟩ := readBytes_of_digest direct' seen
  rw [read, read', injective (digested'.trans digested.symm)]

/-- Fresh dependencies are found with the fingerprints that were recorded. -/
theorem statIdentity_of_dependenciesFresh {dependencies : List Dependency}
    (fresh : dependenciesFresh root disk dependencies = .ok true) {dependency : Dependency}
    (member : dependency ∈ dependencies) :
    ∃ there, confined root disk false ⟨.slash, dependency.path⟩ = .ok there ∧
      statIdentity disk there = .ok dependency.stat := by
  induction dependencies with
  | nil => cases member
  | cons first rest ih =>
      rw [dependenciesFresh] at fresh
      obtain ⟨there, found, fresh⟩ := bind_eq_ok.mp fresh
      split at fresh
      · cases fresh
      · obtain ⟨identity, seen, fresh⟩ := bind_eq_ok.mp fresh
        split at fresh
        · cases fresh
        · next same =>
            rcases List.mem_cons.mp member with rfl | inside
            · exact ⟨there, found, by rw [seen, not_not.mp same]⟩
            · exact ih fresh inside

/-- What a fresh report rests on. -/
theorem of_checkFile_fresh {ledger : Ledger} {value : PurePath} {report : Report}
    (checked : checkFile sha256 root disk ledger value = .ok report) (fresh : report.fresh = true) :
    ∃ path entry, confined root disk false value = .ok path ∧ ledger.lookup path = some entry ∧
      report.conclusion = some entry.conclusion ∧
      dependenciesFresh root disk entry.dependencies = .ok true ∧
      (statIdentity disk path = .ok entry.stat ∨
        ∃ identity, consistentDigest sha256 disk path = .ok (entry.sha256, identity)) := by
  rw [checkFile] at checked
  obtain ⟨path, here, checked⟩ := bind_eq_ok.mp checked
  cases known : ledger.lookup path with
  | none =>
      rw [known] at checked
      cases checked
      cases fresh
  | some old =>
      rw [known] at checked
      dsimp only at checked
      split at checked
      · cases checked
        cases fresh
      · obtain ⟨current, seen, checked⟩ := bind_eq_ok.mp checked
        obtain ⟨below, depends, checked⟩ := bind_eq_ok.mp checked
        split at checked
        · next both =>
            cases checked
            exact ⟨path, old, here, known, rfl, both.2 ▸ depends, Or.inl (both.1 ▸ seen)⟩
        · obtain ⟨⟨digest, identity⟩, read, checked⟩ := bind_eq_ok.mp checked
          cases checked
          obtain ⟨same, all⟩ := Bool.and_eq_true_iff.mp fresh
          have sameDigest : digest = old.sha256 := of_decide_eq_true same
          exact ⟨path, old, here, known, rfl, all ▸ depends, Or.inr ⟨identity, sameDigest ▸ read⟩⟩

/-- Where no link is recorded or checked, a fresh report is sound. -/
theorem soundlyFresh_of_direct (injective : Function.Injective sha256) (tells : StatTells arises)
    {start : SourceDisk} (begins : arises start) {now : Situation}
    (run : Transition.Reachable (happen sha256 host root) (DirectRecord root arises)
      (Situation.fresh start) now) {value : PurePath} (noLink : NoLinkAt root now.disk false value) :
    SoundlyFresh sha256 root now value := by
  obtain ⟨current, traced⟩ := traced_of_run begins run
  intro report checked fresh
  obtain ⟨path, entry, here, known, told, depends, ground⟩ := of_checkFile_fresh checked fresh
  obtain ⟨origin, recordedAt, before, recorded⟩ := traced path entry known
  refine ⟨path, entry, origin, here, known, told, recordedAt, ?_, fun dependency member => ?_⟩
  · have stat := (of_consistentDigest recorded.file).2
    rcases ground with seen | ⟨identity, read⟩
    · exact readBytes_of_statIdentity tells current before recorded.noLink stat seen
    · exact readBytes_of_sameDigest injective recorded.noLink (noLink path here) recorded.file read
  · obtain ⟨there, found, seen⟩ := statIdentity_of_dependenciesFresh depends member
    obtain ⟨read, direct⟩ := recorded.dependencies dependency member
    have stat := (of_consistentDigest read).2
    exact ⟨there, found, readBytes_of_statIdentity tells current before direct stat seen⟩

end

/-! ## A link and what it leads to -/

/-- A project of two files and a link; `edit` is what `a.md` holds, and when it was written. -/
def notedDisk (edit : UInt8) : SourceDisk where
  tree := LinkTree.ofNodes
    [([text "p"], .directory), ([text "p", text "a.md"], .file), ([text "p", text "b.md"], .file),
      ([text "p", text "note"], .symlink (text "a.md"))]
    (by decide +kernel)
  stats place :=
    if place = [text "p", text "a.md"] then ⟨1, edit.toNat, edit.toNat, 7, 1⟩
    else if place = [text "p", text "b.md"] then ⟨1, 0, 0, 8, 1⟩
    else if place = [text "p", text "note"] then ⟨4, 0, 0, 9, 1⟩
    else ⟨4096, 0, 0, 2, 1⟩
  contents place := if place = [text "p", text "a.md"] then [edit] else [0]

/-- What the file holds that has this identity. -/
def heldAs (stat : FileStat) : Option Bytes :=
  if stat.inode = 7 ∨ stat.inode = 8 then some [UInt8.ofNat stat.mtimeNs] else none

theorem node_notedDisk (edit : UInt8) (place : Location) : (notedDisk edit).tree.node place =
    if place = [] ∨ place = [text "p"] then some .directory
    else if place = [text "p", text "a.md"] ∨ place = [text "p", text "b.md"] then some .file
    else if place = [text "p", text "note"] then some (.symlink (text "a.md")) else none := by
  simp only [notedDisk, LinkTree.ofNodes, LinkTree.node, List.lookup_cons, List.lookup_nil]
  split_ifs <;> grind

theorem held_notedDisk {edit : UInt8} {path : List Text} {place : Location}
    (direct : (notedDisk edit).Direct path place) :
    (notedDisk edit).held place = heldAs ((notedDisk edit).stats place) := by
  obtain ⟨node, named, noLink⟩ := direct
  have there := (node_of_entry named).2
  rw [SourceDisk.held, there]
  rw [node_notedDisk] at there
  split_ifs at there with above file link
  · cases there
    rcases above with rfl | rfl <;> simp [notedDisk, heldAs]
  · cases there
    rcases file with rfl | rfl <;> simp [notedDisk, heldAs, text]
  · cases there
    exact absurd rfl (noLink _)

/-- What `a.md` may hold. -/
def Edited (disk : SourceDisk) : Prop := ∃ edit, disk = notedDisk edit

theorem statTells_edited : StatTells Edited := by
  rintro first second ⟨edit, rfl⟩ ⟨edit', rfl⟩ path place path' place' direct direct' same
  rw [held_notedDisk direct, held_notedDisk direct', same]

/-- The root of the project. -/
def notedRoot : PurePath := ⟨.slash, [text "p"]⟩

/-- The link as it is recorded. -/
def noteEntry : Entry where
  sha256 := text "a.md"
  stat := ⟨⟨4, 0, 0, 9, 1⟩, some (text "a.md")⟩
  dependencies := []
  conclusion := text "reviewed"

/-- A file is recorded, and the disk changes. -/
theorem reachable_record_change {sha256 : Bytes → Text} {host : Host} {root value : PurePath}
    {allowed : Situation → Event → Prop} {before after : SourceDisk} {conclusion : Text}
    {dependencies : List PurePath} {key : Location} {entry : Entry}
    (recorded : recordFile sha256 host root before value conclusion dependencies = .ok (key, entry))
    (first : allowed (.fresh before) (.record value conclusion dependencies))
    (second : ∀ now, allowed now (.change after)) :
    Transition.Reachable (happen sha256 host root) allowed (.fresh before)
      ⟨after, [(key, entry)], Function.update (fun _ => none) key (some before)⟩ := by
  have taken : happen sha256 host root (.fresh before) (.record value conclusion dependencies) =
      some ⟨before, [(key, entry)], Function.update (fun _ => none) key (some before)⟩ := by
    rw [happen, Situation.fresh, recorded]
    rfl
  exact (Transition.Reachable.refl.tail first taken).tail (second _) rfl

/-- The link is recorded, and `a.md` is edited behind it. -/
theorem context_cache_link_stays_fresh :
    ¬ ∀ (sha256 : Bytes → Text) (host : Host) (root : PurePath) (arises : SourceDisk → Prop)
      (start : SourceDisk) (now : Situation) (value : PurePath),
      Function.Injective sha256 → StatTells arises → arises start →
      Transition.Reachable (happen sha256 host root) (AnyRecord arises) (Situation.fresh start) now →
      SoundlyFresh sha256 root now value := by
  intro sound
  have recorded : recordFile Content.bytePoints (tableHost []) notedRoot (notedDisk 1)
      ⟨.relative, [text "note"]⟩ (text "reviewed") [] =
        .ok ([text "p", text "note"], noteEntry) := by
    decide +kernel
  have run : Transition.Reachable (happen Content.bytePoints (tableHost []) notedRoot)
      (AnyRecord Edited) _ _ :=
    reachable_record_change recorded trivial fun _ => ⟨2, rfl⟩
  have checked : checkFile Content.bytePoints notedRoot (notedDisk 2)
      [([text "p", text "note"], noteEntry)] ⟨.relative, [text "note"]⟩ =
        .ok (.unchanged noteEntry) := by
    decide +kernel
  have place : confined notedRoot (notedDisk 2) false ⟨.relative, [text "note"]⟩ =
      .ok [text "p", text "note"] := by
    decide +kernel
  obtain ⟨path, entry, origin, here, -, -, recordedAt, same, -⟩ :=
    sound _ _ _ _ _ _ ⟨.relative, [text "note"]⟩ Content.bytePoints_injective statTells_edited
      ⟨1, rfl⟩ run _ checked rfl
  have samePath := Except.ok.inj (place.symm.trans here)
  dsimp only at recordedAt same
  rw [← samePath, Function.update_self] at recordedAt
  rw [← Option.some.inj recordedAt, ← samePath] at same
  revert same
  decide +kernel

/-- `b.md` as it is recorded, depending on `a.md`. -/
def memoEntry : Entry where
  sha256 := Content.bytePoints [0]
  stat := ⟨⟨1, 0, 0, 8, 1⟩, none⟩
  dependencies :=
    [⟨[text "p", text "a.md"], Content.bytePoints [1], ⟨⟨1, 1, 1, 7, 1⟩, none⟩⟩]
  conclusion := text "reviewed"

/-- A file that depends on `a.md`, where nothing was edited. -/
theorem soundlyFresh_memo : ∃ now : Situation,
    checkFile Content.bytePoints notedRoot now.disk now.ledger ⟨.relative, [text "b.md"]⟩ =
      .ok (.unchanged memoEntry) ∧
    SoundlyFresh Content.bytePoints notedRoot now ⟨.relative, [text "b.md"]⟩ := by
  have recorded : recordFile Content.bytePoints (tableHost []) notedRoot (notedDisk 1)
      ⟨.relative, [text "b.md"]⟩ (text "reviewed") [⟨.relative, [text "a.md"]⟩] =
        .ok ([text "p", text "b.md"], memoEntry) := by
    decide +kernel
  have direct (mustExist : Bool) (name : Text) (member : name ∈ [text "b.md", text "a.md"]) :
      NoLinkAt notedRoot (notedDisk 1) mustExist ⟨.relative, [name]⟩ := by
    have found : confined notedRoot (notedDisk 1) mustExist ⟨.relative, [name]⟩ =
        .ok [text "p", name] ∧ (notedDisk 1).isSymlink [text "p", name] = false := by
      revert mustExist name
      decide +kernel
    intro path here
    rw [← Except.ok.inj (found.1.symm.trans here)]
    exact found.2
  have run : Transition.Reachable (happen Content.bytePoints (tableHost []) notedRoot)
      (DirectRecord notedRoot Edited) _ _ :=
    reachable_record_change recorded (by
      intro given member
      simp only [List.mem_cons, List.not_mem_nil, or_false] at member
      rcases member with rfl | rfl
      · exact direct true _ (by simp)
      · exact direct true _ (by simp)) fun _ => ⟨1, rfl⟩
  exact ⟨_, by decide +kernel, soundlyFresh_of_direct Content.bytePoints_injective
    statTells_edited ⟨1, rfl⟩ run (direct false _ (by simp))⟩

end ContextCache

end CarbonLab.Aegis
