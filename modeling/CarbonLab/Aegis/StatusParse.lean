import CarbonLab.Aegis.DirtyFiles
import CarbonLab.Lib.Utf8Escape

/-!
# Git status, parsed

`_parse_status` of `workspace.py` and the loop of `_git_facts` of `discovery.py` read the same
output of `git status --porcelain=v1 -z`.
-/

namespace CarbonLab.Aegis

open StatusEntry

namespace StatusParse

/-! ## `_parse_status` -/

/-- What `_parse_status` raises. -/
inductive Fault
  | runtimeError (message : Text)
  | unicodeDecodeError
  deriving DecidableEq, Repr

/-- What `_parse_status` returns for a record: `(status, relative, previous)`. -/
structure Parsed where
  status : Text
  relative : Text
  previous : Option Text
  deriving DecidableEq, Repr

/-- The character of an ASCII byte. -/
def asciiPoint (byte : UInt8) : CodePoint := Fin.ofNat _ byte.toNat

/-- `bytes.decode("ascii", "strict")` -/
def decodeAscii (bytes : Bytes) : Except Fault Text :=
  if ∀ byte ∈ bytes, byte.toNat < 128 then .ok (bytes.map asciiPoint)
  else .error .unicodeDecodeError

/-- `string.strip("/")` -/
def trimSlashes (string : Text) : Text := stripSlashes (string.dropWhile (· = code '/'))

/-- `_is_ephemeral`; of the policy it reads `policy["ephemeral"]`. -/
def isEphemeral (relative : Text) (ephemeral : List Text) : Bool :=
  let normalized := trimSlashes (forwardSlashes relative)
  ephemeral.any fun item =>
    normalized = trimSlashes item ∨ (trimSlashes item ++ [code '/']).isPrefixOf normalized

/-- Does the policy leave a record out? -/
def leftOut (ephemeral : List Text) (record : Parsed) : Bool :=
  isEphemeral record.relative ephemeral &&
    record.previous.all fun previous => isEphemeral previous ephemeral

/-- `records.append`, unless the policy leaves the record out. -/
def append (ephemeral : List Text) (record : Parsed) (records : List Parsed) : List Parsed :=
  if leftOut ephemeral record then records else record :: records

/-- The loop of `_parse_status` over the chunks. -/
def parseChunks (ephemeral : List Text) : List Bytes → Except Fault (List Parsed)
  | [] => .ok []
  | record :: rest =>
      if record = [] then parseChunks ephemeral rest
      else if record.length < 4 ∨ (record.drop 2).take 1 ≠ [32] then
        .error (.runtimeError (text "malformed git porcelain status record"))
      else
        match decodeAscii (record.take 2) with
        | .error fault => .error fault
        | .ok status =>
            let relative := decodeEscaped (record.drop 3)
            if code 'R' ∈ status ∨ code 'C' ∈ status then
              match rest with
              | [] => .error (.runtimeError (text "truncated git rename/copy status record"))
              | previous :: rest =>
                  if previous = [] then
                    .error (.runtimeError (text "truncated git rename/copy status record"))
                  else
                    (parseChunks ephemeral rest).map
                      (append ephemeral ⟨status, relative, some (decodeEscaped previous)⟩)
            else (parseChunks ephemeral rest).map (append ephemeral ⟨status, relative, none⟩)

/-- `_parse_status` -/
def parseStatus (raw : Bytes) (ephemeral : List Text) : Except Fault (List Parsed) :=
  parseChunks ephemeral (chunks raw)

/-! ## What git prints -/

/-- A character of a status code: git prints letters, a blank, `?` and `!`. -/
structure CodeByte where
  byte : UInt8
  ascii : byte.toNat < 128
  no_zero : byte ≠ 0
  deriving DecidableEq

/-- A record of the output: a code of two characters, a path, and for a rename or a copy the path
it was made from. -/
structure Record where
  index : CodeByte
  worktree : CodeByte
  path : GitPath
  previous : Option GitPath
  previous_iff : previous.isSome ↔
    index.byte = 82 ∨ worktree.byte = 82 ∨ index.byte = 67 ∨ worktree.byte = 67
  deriving DecidableEq

namespace Record

/-- The field of the code and the path. -/
def field (record : Record) : Bytes :=
  [record.index.byte, record.worktree.byte, 32] ++ record.path.bytes

/-- The fields of a record. -/
def fields (record : Record) : List Bytes :=
  record.field :: (record.previous.map GitPath.bytes).toList

/-- The `-z` encoding of records. -/
def encoding (records : List Record) : Bytes :=
  (records.flatMap fields).flatMap (· ++ [0])

/-- The record as `_parse_status` gives it. -/
def parsed (record : Record) : Parsed where
  status := [asciiPoint record.index.byte, asciiPoint record.worktree.byte]
  relative := decodeEscaped record.path.bytes
  previous := record.previous.map fun path => decodeEscaped path.bytes

/-- Is the code `??`? -/
def untracked (record : Record) : Bool :=
  record.index.byte = 63 ∧ record.worktree.byte = 63

/-- The current path as `_git_facts` lists it. -/
def listed (record : Record) : Text := forwardSlashes (decodeEscaped record.path.bytes)

variable {record : Record}

theorem no_zero_of_mem_fields {field : Bytes} (member : field ∈ record.fields) :
    field ≠ [] ∧ 0 ∉ field := by
  rcases List.mem_cons.mp member with rfl | original
  · constructor
    · simp [Record.field]
    · simpa [Record.field, eq_comm (a := (0 : UInt8))] using
        ⟨record.index.no_zero, record.worktree.no_zero, record.path.no_zero⟩
  · obtain ⟨path, _, rfl⟩ := Option.map_eq_some_iff.mp (Option.mem_toList.mp original)
    exact ⟨path.nonempty, path.no_zero⟩

theorem no_zero_of_mem_flatMap {records : List Record} {field : Bytes}
    (member : field ∈ records.flatMap fields) : field ≠ [] ∧ 0 ∉ field := by
  obtain ⟨record, _, inside⟩ := List.mem_flatMap.mp member
  exact no_zero_of_mem_fields inside

/-- The chunks of an encoding are the fields, and what stands behind it. -/
theorem chunks_encoding_append (records : List Record) (rest : Bytes) :
    chunks (encoding records ++ rest) = records.flatMap fields ++ chunks rest :=
  chunks_flatMap (fun _ member => (no_zero_of_mem_flatMap member).2) rest

theorem asciiPoint_inj {first second : UInt8} :
    asciiPoint first = asciiPoint second ↔ first = second := by
  constructor
  · intro same
    have firstBound := first.toNat_lt
    have secondBound := second.toNat_lt
    have values := congrArg Fin.val same
    simp only [asciiPoint, Fin.val_ofNat] at values
    rw [Nat.mod_eq_of_lt (by omega), Nat.mod_eq_of_lt (by omega)] at values
    exact UInt8.toNat_inj.mp values
  · rintro rfl
    rfl

theorem decodeAscii_field (record : Record) :
    decodeAscii (record.field.take 2) = .ok record.parsed.status := by
  apply if_pos
  intro byte member
  simp only [field, List.cons_append, List.take_succ_cons, List.take_zero, List.mem_cons,
    List.not_mem_nil, or_false] at member
  rcases member with rfl | rfl
  · exact record.index.ascii
  · exact record.worktree.ascii

/-- The test for a previous path, on the code as text. -/
theorem mem_status_iff (record : Record) :
    code 'R' ∈ record.parsed.status ∨ code 'C' ∈ record.parsed.status ↔
      record.previous.isSome := by
  have renamed : code 'R' = asciiPoint 82 := rfl
  have copied : code 'C' = asciiPoint 67 := rfl
  rw [record.previous_iff, renamed, copied]
  simp only [parsed, List.mem_cons, List.not_mem_nil, or_false, asciiPoint_inj,
    eq_comm (a := (82 : UInt8)), eq_comm (a := (67 : UInt8)), or_assoc]

theorem hasOriginal_field (record : Record) :
    hasOriginal record.field = record.previous.isSome := by
  rw [Bool.eq_iff_iff, record.previous_iff, hasOriginal, decide_eq_true_eq]
  simp only [field, List.cons_append, List.take_succ_cons, List.take_zero, List.mem_cons,
    List.not_mem_nil, or_false, eq_comm (a := (82 : UInt8)), eq_comm (a := (67 : UInt8)),
    or_assoc]

theorem isUntracked_field (record : Record) : isUntracked record.field = record.untracked := by
  simp [isUntracked, untracked, field]

theorem four_le_length_field (record : Record) : 4 ≤ record.field.length := by
  have positive := List.length_pos_of_ne_nil record.path.nonempty
  rw [field, List.length_append, List.length_cons, List.length_cons, List.length_singleton]
  omega

/-- What the loop does with a field, before it looks for a previous path. -/
theorem parseChunks_field (ephemeral : List Text) (record : Record) (rest : List Bytes) :
    parseChunks ephemeral (record.field :: rest) =
      if record.previous.isSome then
        match rest with
        | [] => .error (.runtimeError (text "truncated git rename/copy status record"))
        | previous :: rest =>
            if previous = [] then
              .error (.runtimeError (text "truncated git rename/copy status record"))
            else
              (parseChunks ephemeral rest).map (append ephemeral
                ⟨record.parsed.status, record.parsed.relative, some (decodeEscaped previous)⟩)
      else
        (parseChunks ephemeral rest).map
          (append ephemeral ⟨record.parsed.status, record.parsed.relative, none⟩) := by
  have long := record.four_le_length_field
  have blank : (record.field.drop 2).take 1 = [32] := rfl
  rw [parseChunks, if_neg (no_zero_of_mem_fields List.mem_cons_self).1,
    if_neg (by simp [blank]; omega), decodeAscii_field]
  simp only [mem_status_iff]
  rfl

/-- Under an empty policy nothing is left out. -/
theorem append_nil (record : Parsed) : append [] record = (record :: ·) := rfl

/-- The fields of a record are read as that record. -/
theorem parseChunks_fields (record : Record) (rest : List Bytes) :
    parseChunks [] (record.fields ++ rest) =
      (parseChunks [] rest).map (record.parsed :: ·) := by
  rw [fields, List.cons_append, parseChunks_field]
  cases previous : record.previous with
  | none =>
      rw [if_neg (by simp), append_nil, parsed, previous]
      rfl
  | some path =>
      rw [if_pos Option.isSome_some, parsed, previous]
      exact if_neg path.nonempty

/-- Records at the front are read first. -/
theorem parseChunks_append (records : List Record) (rest : List Bytes) :
    parseChunks [] (records.flatMap fields ++ rest) =
      (parseChunks [] rest).map (records.map parsed ++ ·) := by
  induction records with
  | nil =>
      change parseChunks [] rest = (parseChunks [] rest).map fun records => records
      cases parseChunks [] rest <;> rfl
  | cons record others ih =>
      rw [List.flatMap_cons, List.append_assoc, parseChunks_fields, ih]
      cases parseChunks [] rest <;> rfl

theorem parseStatus_encoding (records : List Record) :
    parseStatus (encoding records) [] = .ok (records.map parsed) := by
  have read := parseChunks_append records (chunks [])
  have behind : parseChunks [] (chunks []) = .ok [] := by
    rw [show chunks [] = [[]] from rfl, parseChunks, if_pos rfl, parseChunks]
  rw [← chunks_encoding_append, List.append_nil, behind] at read
  rw [parseStatus, read, Except.map, List.append_nil]

/-- A rename or copy record whose previous path is cut off. -/
theorem parseStatus_truncated (before : List Record) (renames : record.previous.isSome)
    {ending : Bytes} (ends : ending = [] ∨ ending = [0]) :
    parseStatus (encoding before ++ (record.field ++ ending)) [] =
      .error (.runtimeError (text "truncated git rename/copy status record")) := by
  have plain : 0 ∉ record.field := (no_zero_of_mem_fields List.mem_cons_self).2
  have last : parseChunks [] (chunks (record.field ++ ending)) =
      .error (.runtimeError (text "truncated git rename/copy status record")) := by
    rcases ends with rfl | rfl
    · have alone : chunks (record.field ++ []) = [record.field] := by
        rw [List.append_nil]
        exact List.splitOn_eq_singleton plain
      rw [alone, parseChunks_field, if_pos renames]
    · have split_ := chunks_append plain []
      rw [List.append_nil] at split_
      rw [split_, parseChunks_field, if_pos renames]
      rfl
  rw [parseStatus, chunks_encoding_append, parseChunks_append, last]
  rfl

/-! ## `_git_facts` -/

/-- The previous path of a record is skipped. -/
theorem scanStatus_fields (record : Record) (rest : List Bytes) :
    scanStatus decodeEscaped false (record.fields ++ rest) =
      let later := scanStatus decodeEscaped false rest
      if record.untracked then (later.1, record.listed :: later.2)
      else (record.listed :: later.1, later.2) := by
  have long := Nat.not_lt.mpr record.four_le_length_field
  have path : record.field.drop 3 = record.path.bytes := rfl
  have behind : scanStatus decodeEscaped record.previous.isSome
      ((record.previous.map GitPath.bytes).toList ++ rest) =
        scanStatus decodeEscaped false rest := by
    cases record.previous with
    | none => rfl
    | some path => exact if_pos (Or.inl rfl)
  rw [fields, List.cons_append, scanStatus, if_neg (by simp [long]), hasOriginal_field, behind,
    isUntracked_field, path]
  rfl

theorem scanStatus_flatMap (records : List Record) :
    scanStatus decodeEscaped false (records.flatMap fields) =
      ((records.filter (!·.untracked)).map listed, (records.filter (·.untracked)).map listed) := by
  induction records with
  | nil => rfl
  | cons record others ih =>
      rw [List.flatMap_cons, scanStatus_fields, ih]
      cases known : record.untracked <;> simp [known]

theorem scanStatus_encoding (records : List Record) :
    scanStatus decodeEscaped false ((chunks (encoding records)).filter (· ≠ [])) =
      ((records.filter (!·.untracked)).map listed, (records.filter (·.untracked)).map listed) := by
  have split_ := chunks_encoding_append records []
  have kept : (records.flatMap fields).filter (· ≠ []) = records.flatMap fields := by
    apply List.filter_eq_self.mpr
    intro field member
    simpa using (no_zero_of_mem_flatMap member).1
  have nothing : (chunks []).filter (· ≠ []) = [] := rfl
  rw [List.append_nil] at split_
  rw [split_, List.filter_append, kept, nothing, List.append_nil, scanStatus_flatMap]

/-- The code test of `_git_facts`, on what `_parse_status` gives. -/
theorem untracked_iff_status (record : Record) :
    record.untracked = decide (record.parsed.status = text "??") := by
  have question : text "??" = [asciiPoint 63, asciiPoint 63] := rfl
  rw [question, parsed, untracked]
  simp only [List.cons.injEq, asciiPoint_inj, and_true]

/-! ## The two parsers -/

theorem decodeEscaped_inj {first second : GitPath}
    (same : decodeEscaped first.bytes = decodeEscaped second.bytes) : first = second := by
  have encoded := congrArg encodeEscaped same
  rw [encodeEscaped_decodeEscaped, encodeEscaped_decodeEscaped, Option.some_inj] at encoded
  cases first
  cases second
  cases encoded
  rfl

/-- Nothing of a record is lost. -/
theorem parsed_injective : Function.Injective parsed := by
  intro first second same
  obtain ⟨status, relative, previous⟩ := Parsed.mk.inj same
  simp only [List.cons.injEq, asciiPoint_inj, and_true] at status
  have paths := decodeEscaped_inj relative
  have previous : first.previous = second.previous :=
    Option.map_injective (fun _ _ => decodeEscaped_inj) previous
  obtain ⟨⟨_, _, _⟩, ⟨_, _, _⟩, _, _, _⟩ := first
  obtain ⟨⟨_, _, _⟩, ⟨_, _, _⟩, _, _, _⟩ := second
  obtain ⟨rfl, rfl⟩ := status
  cases paths
  cases previous
  rfl

theorem encoding_append (before after : List Record) :
    encoding (before ++ after) = encoding before ++ encoding after := by
  rw [encoding, List.flatMap_append, List.flatMap_append]
  rfl

/-- An encoding up to the field of a record, with the zero byte behind it or without. -/
theorem take_encoding (before after : List Record) (record : Record) {extra : ℕ}
    (few : extra ≤ 1) :
    (encoding (before ++ record :: after)).take
        ((encoding before).length + record.field.length + extra) =
      encoding before ++ (record.field ++ [0].take extra) := by
  have rest : encoding (record :: after) =
      record.field ++ ([0] ++ ((record.previous.map GitPath.bytes).toList.flatMap (· ++ [0]) ++
        encoding after)) := by
    simp [encoding, fields]
  have inside : extra - [(0 : UInt8)].length = 0 := by
    rw [List.length_singleton]
    omega
  rw [encoding_append, rest, Nat.add_assoc, List.take_append, List.take_of_length_le (by omega),
    Nat.add_sub_cancel_left, List.take_append, List.take_of_length_le (by omega),
    Nat.add_sub_cancel_left, List.take_append, inside, List.take_zero, List.append_nil]

/-- **Parsing git's status.** `_parse_status` under an empty ephemeral policy inverts the encoding
of records and loses nothing of them; it rejects an encoding that ends before the previous path of
a rename or a copy; and `_git_facts` lists the same paths from the same bytes, up to its slashes,
dirty and untracked ones by the same code. -/
theorem parseStatus_inverts (records : List Record) :
    parseStatus (encoding records) [] = .ok (records.map parsed) ∧
      Function.Injective parsed ∧
      (∀ before record after, records = before ++ record :: after →
        record.previous.isSome → ∀ extra ≤ 1,
          parseStatus ((encoding records).take
              ((encoding before).length + record.field.length + extra)) [] =
            .error (.runtimeError (text "truncated git rename/copy status record"))) ∧
      scanStatus decodeEscaped false ((chunks (encoding records)).filter (· ≠ [])) =
        (((records.map parsed).filter (·.status ≠ text "??")).map (forwardSlashes ·.relative),
          ((records.map parsed).filter (·.status = text "??")).map (forwardSlashes ·.relative)) := by
  refine ⟨parseStatus_encoding records, parsed_injective, ?_, ?_⟩
  · rintro before record after rfl renames extra few
    rw [take_encoding before after record few]
    apply parseStatus_truncated before renames
    interval_cases extra
    · exact Or.inl rfl
    · exact Or.inr rfl
  · rw [scanStatus_encoding, List.filter_map, List.filter_map, List.map_map, List.map_map]
    congr 2
    · apply List.filter_congr
      intro record _
      simp [untracked_iff_status]
    · apply List.filter_congr
      intro record _
      simp [untracked_iff_status]

/-- `a` renamed to `b`. -/
def renamed : Record where
  index := ⟨82, by decide, by decide⟩
  worktree := ⟨32, by decide, by decide⟩
  path := ⟨[98], by decide, by decide⟩
  previous := some ⟨[97], by decide, by decide⟩
  previous_iff := by decide

theorem parseStatus_inverts_renamed :
    parseStatus [82, 32, 32, 98, 0, 97, 0] [] = .ok [renamed.parsed] ∧
      parseStatus [82, 32, 32, 98, 0] [] =
        .error (.runtimeError (text "truncated git rename/copy status record")) :=
  ⟨(parseStatus_inverts [renamed]).1,
    (parseStatus_inverts [renamed]).2.2.1 [] renamed [] rfl rfl 1 le_rfl⟩

end Record

end StatusParse

end CarbonLab.Aegis
