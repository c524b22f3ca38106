import CarbonLab.Lib.Bytes

/-!
# Git status

What `git status --porcelain=v1 -z` prints: every path is relative to the top level of the
worktree, also when the command runs in a directory below it.
-/

namespace CarbonLab.Aegis

/-- A letter of a status. -/
inductive StatusLetter
  | unmodified
  | modified
  | typeChanged
  | added
  | deleted
  | renamed
  | copied
  | unmerged
  | untracked
  deriving DecidableEq, Repr

/-- The byte that git prints. -/
def StatusLetter.byte : StatusLetter → UInt8
  | .unmodified => 32
  | .modified => 77
  | .typeChanged => 84
  | .added => 65
  | .deleted => 68
  | .renamed => 82
  | .copied => 67
  | .unmerged => 85
  | .untracked => 63

theorem StatusLetter.byte_inj {first second : StatusLetter} :
    first.byte = second.byte ↔ first = second := by
  cases first <;> cases second <;> decide

/-- A path of the worktree, as the bytes of its name. -/
structure GitPath where
  bytes : Bytes
  nonempty : bytes ≠ []
  no_zero : 0 ∉ bytes
  deriving DecidableEq

/-- A changed path and how it differs in the index and in the worktree.  A renamed or copied
path comes with the one it was made from. -/
structure StatusEntry where
  index : StatusLetter
  worktree : StatusLetter
  path : GitPath
  original : Option GitPath
  untracked_iff : index = .untracked ↔ worktree = .untracked
  original_iff : original.isSome ↔
    index = .renamed ∨ worktree = .renamed ∨ index = .copied ∨ worktree = .copied

namespace StatusEntry

/-- Is the path known to git? -/
def tracked (entry : StatusEntry) : Bool := entry.index ≠ .untracked

/-- The record of a path. -/
def record (entry : StatusEntry) : Bytes :=
  [entry.index.byte, entry.worktree.byte, 32] ++ entry.path.bytes

/-- The records of an entry. -/
def records (entry : StatusEntry) : List Bytes :=
  entry.record :: (entry.original.map GitPath.bytes).toList

/-- What git prints for an entry. -/
def printed (entry : StatusEntry) : Bytes := entry.records.flatMap (· ++ [0])

/-- What git prints for a worktree. -/
def output (entries : List StatusEntry) : Bytes := entries.flatMap printed

/-- `output.split(b"\0")` -/
def chunks (output : Bytes) : List Bytes := output.splitOn 0

variable {entry : StatusEntry}

theorem no_zero_of_mem_records {record : Bytes} (member : record ∈ entry.records) :
    record ≠ [] ∧ 0 ∉ record := by
  rcases List.mem_cons.mp member with first | original
  · rw [first, StatusEntry.record]
    constructor
    · simp
    · have letters (letter : StatusLetter) : 0 ≠ letter.byte := by cases letter <;> decide
      simpa [letters] using entry.path.no_zero
  · obtain ⟨path, _, rfl⟩ := Option.map_eq_some_iff.mp (Option.mem_toList.mp original)
    exact ⟨path.nonempty, path.no_zero⟩

/-- A record at the front is the first chunk. -/
theorem chunks_append {record : Bytes} (plain : 0 ∉ record) (rest : Bytes) :
    chunks (record ++ [0] ++ rest) = record :: chunks rest := by
  rw [List.append_assoc, List.singleton_append]
  apply List.splitOnP_append_cons_of_forall_mem
  · intro byte member
    rw [beq_eq_false_iff_ne]
    exact fun zero => plain (zero ▸ member)
  · rfl

theorem chunks_flatMap {records : List Bytes} (plain : ∀ record ∈ records, 0 ∉ record)
    (rest : Bytes) :
    chunks (records.flatMap (· ++ [0]) ++ rest) = records ++ chunks rest := by
  induction records with
  | nil => rfl
  | cons first others ih =>
      obtain ⟨firstPlain, othersPlain⟩ := List.forall_mem_cons.mp plain
      rw [List.flatMap_cons, List.append_assoc, chunks_append firstPlain, ih othersPlain,
        List.cons_append]

/-- The chunks of the output are the records, and an empty one at the end. -/
theorem chunks_output (entries : List StatusEntry) :
    chunks (output entries) = entries.flatMap records ++ [[]] := by
  have plain : ∀ record ∈ entries.flatMap records, 0 ∉ record := by
    intro record member
    obtain ⟨entry, _, inside⟩ := List.mem_flatMap.mp member
    exact (no_zero_of_mem_records inside).2
  have printed := chunks_flatMap plain []
  rw [List.append_nil, List.flatMap_assoc] at printed
  exact printed

theorem nonempty_chunks_output (entries : List StatusEntry) :
    (chunks (output entries)).filter (· ≠ []) = entries.flatMap records := by
  rw [chunks_output, List.filter_append, List.filter_eq_self.mpr, List.filter_cons_of_neg,
    List.filter_nil, List.append_nil]
  · simp
  · intro record member
    obtain ⟨entry, _, inside⟩ := List.mem_flatMap.mp member
    simpa using (no_zero_of_mem_records inside).1

/-- The path behind the letters of a record. -/
@[simp] theorem drop_record (entry : StatusEntry) : entry.record.drop 3 = entry.path.bytes := rfl

/-- A record has at least one byte of a path. -/
theorem four_le_length_record (entry : StatusEntry) : 4 ≤ entry.record.length := by
  have positive := List.length_pos_of_ne_nil entry.path.nonempty
  rw [record, List.length_append, List.length_cons, List.length_cons, List.length_singleton]
  omega

/-- `"R" in marker or "C" in marker` -/
def hasOriginal (record : Bytes) : Bool := 82 ∈ record.take 2 ∨ 67 ∈ record.take 2

/-- A rename or copy mark says that the original follows. -/
theorem hasOriginal_record (entry : StatusEntry) :
    hasOriginal entry.record = entry.original.isSome := by
  have renamed (letter : StatusLetter) : 82 = letter.byte ↔ letter = .renamed := by
    rw [eq_comm]
    exact @StatusLetter.byte_inj letter .renamed
  have copied (letter : StatusLetter) : 67 = letter.byte ↔ letter = .copied := by
    rw [eq_comm]
    exact @StatusLetter.byte_inj letter .copied
  have marker : entry.record.take 2 = [entry.index.byte, entry.worktree.byte] := rfl
  rw [Bool.eq_iff_iff, entry.original_iff, hasOriginal, decide_eq_true_eq, marker]
  simp only [List.mem_cons, List.not_mem_nil, or_false, renamed, copied, or_assoc]

/-- `marker == "??"` -/
def isUntracked (record : Bytes) : Bool := record.take 2 = [63, 63]

theorem isUntracked_record (entry : StatusEntry) :
    isUntracked entry.record = !entry.tracked := by
  have question (letter : StatusLetter) : letter.byte = 63 ↔ letter = .untracked :=
    @StatusLetter.byte_inj letter .untracked
  have marker : entry.record.take 2 = [entry.index.byte, entry.worktree.byte] := rfl
  rw [isUntracked, tracked, marker, Bool.eq_iff_iff]
  simp [question, ← entry.untracked_iff]

end StatusEntry

end CarbonLab.Aegis
