import CarbonLab.Lib.JsonText
import Mathlib.Data.List.TakeWhile

/-!
# Bytes

Texts as UTF-8, and the lines of a file.
-/

namespace CarbonLab

/-- The contents of a file. -/
abbrev Bytes := List UInt8

/-! ## UTF-8 -/

/-- The UTF-8 bytes of a code point. -/
def encodePoint (point : CodePoint) : Bytes :=
  let value := point.val
  if value < 0x80 then [UInt8.ofNat value]
  else if value < 0x800 then [UInt8.ofNat (0xc0 + value / 64), UInt8.ofNat (0x80 + value % 64)]
  else if value < 0x10000 then
    [UInt8.ofNat (0xe0 + value / 4096), UInt8.ofNat (0x80 + value / 64 % 64),
      UInt8.ofNat (0x80 + value % 64)]
  else
    [UInt8.ofNat (0xf0 + value / 262144), UInt8.ofNat (0x80 + value / 4096 % 64),
      UInt8.ofNat (0x80 + value / 64 % 64), UInt8.ofNat (0x80 + value % 64)]

/-- `string.encode("utf-8")` -/
def encode (string : Text) : Bytes := string.flatMap encodePoint

/-- The payload of a continuation byte. -/
def continuation? (byte : UInt8) : Option ℕ :=
  if 0x80 ≤ byte.toNat ∧ byte.toNat < 0xc0 then some (byte.toNat - 0x80) else none

/-- A code point that was read from several bytes: not one that fewer bytes hold, and a
surrogate only where they pass. -/
def decoded? (surrogates : Bool) (least value : ℕ) : Option CodePoint :=
  if least ≤ value ∧ value < 0x110000 ∧ (surrogates ∨ value < 0xd800 ∨ 0xe000 ≤ value) then
    some (Fin.ofNat _ value)
  else none

/-- Decode UTF-8; `surrogates` is the error handler `surrogatepass`. -/
def decode (surrogates : Bool) : Bytes → Option Text
  | [] => some []
  | first :: rest =>
      if first.toNat < 0x80 then (decode surrogates rest).map (Fin.ofNat _ first.toNat :: ·)
      else if first.toNat < 0xc0 then none
      else
        match rest with
        | [] => none
        | second :: rest => do
            let second ← continuation? second
            if first.toNat < 0xe0 then
              let point ← decoded? surrogates 0x80 ((first.toNat - 0xc0) * 64 + second)
              (decode surrogates rest).map (point :: ·)
            else
              match rest with
              | [] => none
              | third :: rest => do
                  let third ← continuation? third
                  if first.toNat < 0xf0 then
                    let point ← decoded? surrogates 0x800
                      (((first.toNat - 0xe0) * 64 + second) * 64 + third)
                    (decode surrogates rest).map (point :: ·)
                  else
                    match rest with
                    | [] => none
                    | fourth :: rest => do
                        let fourth ← continuation? fourth
                        let point ← decoded? surrogates 0x10000
                          ((((first.toNat - 0xf0) * 64 + second) * 64 + third) * 64 + fourth)
                        if first.toNat < 0xf8 then (decode surrogates rest).map (point :: ·)
                        else none

/-- ASCII text comes back as it was. -/
theorem decode_encode_append {surrogates : Bool} {string : Text}
    (ascii : ∀ letter ∈ string, letter.val < 128) (rest : Bytes) :
    decode surrogates (encode string ++ rest) = (decode surrogates rest).map (string ++ ·) := by
  induction string with
  | nil => cases h : decode surrogates rest <;> simp [encode, h]
  | cons letter string ih =>
      have small : letter.val < 0x80 := ascii letter List.mem_cons_self
      have byte : (UInt8.ofNat letter.val).toNat = letter.val := by
        rw [UInt8.toNat_ofNat']
        omega
      have same : (Fin.ofNat _ letter.val : CodePoint) = letter :=
        Fin.ext (Nat.mod_eq_of_lt letter.isLt)
      have first : encode (letter :: string) = UInt8.ofNat letter.val :: encode string := by
        rw [encode, List.flatMap_cons, encodePoint]
        simp [small, encode]
      rw [first, List.cons_append, decode.eq_def]
      simp only [byte, small, ↓reduceIte, same]
      rw [ih fun letter member => ascii letter (List.mem_cons_of_mem _ member), Option.map_map]
      rfl

theorem decode_encode (surrogates : Bool) {string : Text}
    (ascii : ∀ letter ∈ string, letter.val < 128) :
    decode surrogates (encode string) = some string := by
  have decoded := @decode_encode_append surrogates string ascii []
  rw [List.append_nil] at decoded
  rw [decoded]
  simp [decode]

/-- ASCII texts are told apart by their bytes. -/
theorem encode_inj {first second : Text} (ascii : ∀ letter ∈ first, letter.val < 128)
    (ascii' : ∀ letter ∈ second, letter.val < 128) :
    encode first = encode second ↔ first = second := by
  constructor
  · intro same
    have decoded := decode_encode true ascii
    rw [same, decode_encode true ascii'] at decoded
    exact (Option.some.inj decoded).symm
  · exact congrArg encode

theorem encode_append (first second : Text) :
    encode (first ++ second) = encode first ++ encode second :=
  List.flatMap_append

/-! ## JSON in bytes -/

/-- Sixteen-bit units, with the first byte the high one or not. -/
def wideUnits (bigEndian : Bool) : Bytes → Option Text
  | [] => some []
  | [_] => none
  | first :: second :: rest =>
      let value := if bigEndian then first.toNat * 256 + second.toNat
        else second.toNat * 256 + first.toNat
      (wideUnits bigEndian rest).map (Fin.ofNat _ value :: ·)

/-- Decode UTF-32. -/
def decodeQuads (bigEndian : Bool) : Bytes → Option Text
  | [] => some []
  | first :: second :: third :: fourth :: rest => do
      let value := if bigEndian
        then ((first.toNat * 256 + second.toNat) * 256 + third.toNat) * 256 + fourth.toNat
        else ((fourth.toNat * 256 + third.toNat) * 256 + second.toNat) * 256 + first.toNat
      let point ← decoded? true 0 value
      (decodeQuads bigEndian rest).map (point :: ·)
  | _ => none

/-- Decode bytes the way `json.loads` does: the encoding is told by a byte order mark or
by the zero bytes in front. -/
def decodeDetected : Bytes → Option Text
  | 0x00 :: 0x00 :: 0xfe :: 0xff :: rest => decodeQuads true rest
  | 0xff :: 0xfe :: 0x00 :: 0x00 :: rest => decodeQuads false rest
  | 0xfe :: 0xff :: rest => (wideUnits true rest).map mergeSurrogates
  | 0xff :: 0xfe :: rest => (wideUnits false rest).map mergeSurrogates
  | 0xef :: 0xbb :: 0xbf :: rest => decode true rest
  | [first, second] =>
      if first = 0 then (wideUnits true [first, second]).map mergeSurrogates
      else if second = 0 then (wideUnits false [first, second]).map mergeSurrogates
      else decode true [first, second]
  | first :: second :: third :: fourth :: rest =>
      let bytes := first :: second :: third :: fourth :: rest
      if first = 0 then
        if second = 0 then decodeQuads true bytes
        else (wideUnits true bytes).map mergeSurrogates
      else if second = 0 then
        if third = 0 ∧ fourth = 0 then decodeQuads false bytes
        else (wideUnits false bytes).map mergeSurrogates
      else decode true bytes
  | short => decode true short

/-- `json.loads(path.read_text(encoding="utf-8"))` -/
def readJson (floats : FloatText) (bytes : Bytes) : Option Json :=
  (decode false bytes).bind (loads floats)

/-- `json.loads` of bytes. -/
def loadsBytes (floats : FloatText) (bytes : Bytes) : Option Json :=
  (decodeDetected bytes).bind (loads floats)

/-- `(json.dumps(value, ...) + "\n").encode("utf-8")` -/
def jsonLine (floats : FloatText) (style : JsonStyle) (value : Json) : Bytes :=
  encode (value.dumps floats style ++ [code '\n'])

section

variable {floats : FloatText} {style : JsonStyle}

theorem newline_blank : ∀ letter ∈ [code '\n'], isBlank letter = true := by
  intro letter member
  rw [List.mem_singleton.mp member]
  rfl

/-- A JSON file is read back. -/
theorem readJson_jsonLine (value : Json) :
    readJson floats (jsonLine floats style value) = some value.normalize := by
  have ascii : ∀ letter ∈ value.dumps floats style ++ [code '\n'], letter.val < 128 := by
    intro letter member
    rcases List.mem_append.mp member with dumped | newline
    · exact value.ascii_dumps letter dumped
    · rw [List.mem_singleton.mp newline]
      decide
  rw [readJson, jsonLine, decode_encode false ascii, Option.bind_some]
  exact value.loads_dumps newline_blank

/-- The bytes of printable text. -/
theorem encode_printable {string : Text} (printable : ∀ letter ∈ string, Printable letter) :
    encode string = string.map (fun letter => UInt8.ofNat letter.val) ∧
      ∀ byte ∈ encode string, 32 ≤ byte.toNat ∧ byte.toNat < 127 := by
  have same : encode string = string.map fun letter => UInt8.ofNat letter.val := by
    induction string with
    | nil => rfl
    | cons letter string ih =>
        have small := (printable letter List.mem_cons_self).2
        have rest := ih fun letter member => printable letter (List.mem_cons_of_mem _ member)
        rw [encode] at rest
        rw [encode, List.flatMap_cons, rest, encodePoint, List.map_cons,
          if_pos (show letter.val < 0x80 by omega)]
        rfl
  refine ⟨same, ?_⟩
  intro byte encoded
  rw [same] at encoded
  obtain ⟨letter, member, rfl⟩ := List.mem_map.mp encoded
  obtain ⟨low, high⟩ := printable letter member
  rw [UInt8.toNat_ofNat']
  omega

set_option linter.auxLemma false in
/-- ASCII bytes other than zero are read as UTF-8. -/
theorem decodeDetected_plain {bytes : Bytes}
    (bounds : ∀ byte ∈ bytes, 0 < byte.toNat ∧ byte.toNat < 128) :
    decodeDetected bytes = decode true bytes := by
  have notZero : ∀ byte ∈ bytes, byte ≠ 0 := by
    rintro byte member rfl
    exact absurd (bounds 0 member) (by decide)
  unfold decodeDetected
  cases bytes with
  | nil => rfl
  | cons first rest =>
      have plain := (bounds first List.mem_cons_self).2
      have zero : first ≠ 0x00 := notZero first List.mem_cons_self
      have noMark : first ≠ 0xff ∧ first ≠ 0xfe ∧ first ≠ 0xef := by
        refine ⟨?_, ?_, ?_⟩ <;> rintro rfl <;> exact absurd plain (by decide)
      -- The first byte is none of those that the patterns begin with.
      delta decodeDetected.match_1
      refine (dif_neg zero).trans ?_
      refine (dif_neg noMark.1).trans ?_
      refine (dif_neg noMark.2.1).trans ?_
      refine (dif_neg noMark.2.2).trans ?_
      rcases rest with _ | ⟨second, _ | ⟨third, _ | ⟨fourth, rest⟩⟩⟩
      · rfl
      · have zero' : second ≠ 0 := notZero second (by simp)
        exact (if_neg zero).trans (if_neg zero')
      · rfl
      · have zero' : second ≠ 0 := notZero second (by simp)
        exact (if_neg zero).trans (if_neg zero')

/-- Compact JSON text is read back from its bytes. -/
theorem loadsBytes_dumps (value : Json) :
    loadsBytes floats (encode (value.dumps floats .compact)) = some value.normalize := by
  have printable : ∀ letter ∈ value.dumps floats .compact, Printable letter :=
    value.printable_dumps
  have loaded : loads floats (value.dumps floats .compact ++ []) = some value.normalize :=
    value.loads_dumps (by simp)
  have decoded := decode_encode true fun letter member =>
    show letter.val < 128 by have := (printable letter member).2; omega
  have detected := decodeDetected_plain fun byte member => by
    have bounds := (encode_printable printable).2 byte member
    omega
  rw [loadsBytes, detected, decoded,
    Option.bind_some, ← loaded, List.append_nil]

/-- A dictionary that is read has its keys in order. -/
theorem ordered_of_loadsBytes {bytes : Bytes} {fields : List (Text × Json)}
    (loaded : loadsBytes floats bytes = some (.obj fields)) : Fields.Ordered fields := by
  obtain ⟨_, _, loaded⟩ := Option.bind_eq_some_iff.mp loaded
  exact ordered_of_loads loaded

theorem ordered_of_readJson {bytes : Bytes} {fields : List (Text × Json)}
    (loaded : readJson floats bytes = some (.obj fields)) : Fields.Ordered fields := by
  obtain ⟨_, _, loaded⟩ := Option.bind_eq_some_iff.mp loaded
  exact ordered_of_loads loaded

/-- Control characters and spaces hold no value. -/
theorem loads_space {input : Text} (space : ∀ letter ∈ input, letter.val ≤ 32) :
    loads floats input = none := by
  have inside : ∀ letter ∈ skip input, letter.val ≤ 32 := fun letter member =>
    space letter ((List.dropWhile_sublist _).subset member)
  have nothing : parseValue floats (input.length + 1) (skip input) = none := by
    cases rest : skip input with
    | nil => rw [parseValue]
    | cons letter later =>
        have small : letter.val ≤ 32 := inside letter (by simp [rest])
        have other (other : CodePoint) (large : 32 < other.val) : letter ≠ other := by
          rintro rfl
          omega
        have constant : scanConstant (letter :: later) = none := by
          refine List.findSome?_eq_none_iff.mpr ?_
          rintro ⟨word, value⟩ member
          refine if_neg ?_
          intro starts
          simp only [constants, List.mem_cons, List.not_mem_nil, or_false] at member
          rcases member with is | is | is | is | is | is <;>
          · obtain ⟨rfl, -⟩ := Prod.mk.inj is
            have first : letter = _ := ((List.cons_prefix_cons.mp
              (List.isPrefixOf_iff_prefix.mp starts)).1).symm
            exact absurd first (other _ (by decide))
        have digit : digit? letter = none := by
          rw [digit?]
          exact dif_neg (by omega)
        have number : scanNumber floats (letter :: later) = none := by
          have minus : scanMinus (letter :: later) = (false, letter :: later) := by
            rw [scanMinus, if_neg (other _ (by decide))]
          have zero : letter ≠ code '0' := other _ (by decide)
          rw [scanNumber, minus]
          simp [scanWhole, digit, zero]
        rw [parseValue, if_neg (other _ (by decide)), if_neg (other _ (by decide)),
          if_neg (other _ (by decide)), constant, number]
        rfl
  rw [loads]
  split
  · rfl
  · rw [nothing]
    rfl

/-- Bytes of white space hold no value. -/
theorem loadsBytes_space {bytes : Bytes}
    (space : ∀ byte ∈ bytes, 9 ≤ byte.toNat ∧ byte.toNat ≤ 32) :
    loadsBytes floats bytes = none := by
  let input : Text := bytes.map fun byte => Fin.ofNat _ byte.toNat
  have small : ∀ letter ∈ input, letter.val ≤ 32 := by
    intro letter member
    obtain ⟨byte, inside, rfl⟩ := List.mem_map.mp member
    have bound := (space byte inside).2
    simp only [Fin.ofNat]
    omega
  have encoded : encode input = bytes := by
    have each : ∀ byte ∈ bytes, encodePoint (Fin.ofNat _ byte.toNat) = [byte] := by
      intro byte inside
      have bound := (space byte inside).2
      have value : (Fin.ofNat 0x110000 byte.toNat).val = byte.toNat := by
        simp only [Fin.ofNat]
        omega
      rw [encodePoint, value, if_pos (by omega), UInt8.ofNat_toNat]
    rw [encode, List.flatMap_map, List.flatMap_congr each]
    simp
  have detected : decodeDetected bytes = decode true bytes :=
    decodeDetected_plain fun byte inside => by
      have bound := space byte inside
      omega
  have decoded := decode_encode true fun letter member =>
    show letter.val < 128 by have := small letter member; omega
  rw [encoded] at decoded
  rw [loadsBytes, detected, decoded, Option.bind_some, loads_space small]

end

/-! ## Lines -/

/-- `bytes.splitlines()`: a line ends with a line feed, a carriage return or both. -/
def splitlines : Bytes → List Bytes
  | [] => []
  | byte :: rest =>
      if byte = 10 then [] :: splitlines rest
      else if byte = 13 then
        match rest with
        | [] => [[]]
        | second :: later =>
            if second = 10 then [] :: splitlines later else [] :: splitlines (second :: later)
      else
        match splitlines rest with
        | [] => [[byte]]
        | line :: lines => (byte :: line) :: lines

/-- Bytes that end a line or are empty. -/
def WholeLines (bytes : Bytes) : Prop :=
  bytes = [] ∨ bytes.getLast? = some 10

instance (bytes : Bytes) : Decidable (WholeLines bytes) := by
  unfold WholeLines
  infer_instance

/-- The end of a line is not the start of one. -/
theorem WholeLines.tail {byte : UInt8} {rest : Bytes} (whole : WholeLines (byte :: rest))
    (inside : byte ≠ 10) : rest ≠ [] ∧ WholeLines rest := by
  rcases whole with empty | ends
  · cases empty
  · cases rest with
    | nil => exact absurd (by simpa using ends) inside
    | cons second later => exact ⟨by simp, Or.inr (by simpa using ends)⟩

theorem splitlines_feed (rest : Bytes) : splitlines (10 :: rest) = [] :: splitlines rest := by
  rw [splitlines.eq_def]
  rfl

theorem splitlines_return_feed (rest : Bytes) :
    splitlines (13 :: 10 :: rest) = [] :: splitlines rest := by
  rw [splitlines.eq_def]
  rfl

theorem splitlines_return {second : UInt8} (other : second ≠ 10) (rest : Bytes) :
    splitlines (13 :: second :: rest) = [] :: splitlines (second :: rest) := by
  rw [splitlines.eq_def]
  simp only [other, ↓reduceIte]
  rfl

theorem splitlines_inside {byte : UInt8} (notFeed : byte ≠ 10) (notReturn : byte ≠ 13)
    (rest : Bytes) :
    splitlines (byte :: rest) =
      (byte :: (splitlines rest).headD []) :: (splitlines rest).tail := by
  rw [splitlines.eq_def]
  simp only [notFeed, notReturn, ↓reduceIte]
  cases splitlines rest <;> rfl

theorem splitlines_ne_nil {bytes : Bytes} (filled : bytes ≠ []) : splitlines bytes ≠ [] := by
  rcases bytes with _ | ⟨byte, rest⟩
  · exact absurd rfl filled
  · by_cases feed : byte = 10
    · simp [feed, splitlines_feed]
    · by_cases return_ : byte = 13
      · subst return_
        rcases rest with _ | ⟨second, rest⟩
        · decide
        · by_cases second_ : second = 10
          · simp [second_, splitlines_return_feed]
          · simp [splitlines_return second_]
      · simp [splitlines_inside feed return_]

/-- The lines of a file and of what is appended to it. -/
theorem splitlines_append {bytes : Bytes} (whole : WholeLines bytes) (rest : Bytes) :
    splitlines (bytes ++ rest) = splitlines bytes ++ splitlines rest := by
  induction bytes using splitlines.induct with
  | case1 => rfl
  | case2 later ih =>
      have wholeLater : WholeLines later := by
        cases later with
        | nil => exact Or.inl rfl
        | cons second later => exact Or.inr (by simpa [WholeLines] using whole)
      rw [List.cons_append, splitlines_feed, splitlines_feed, ih wholeLater]
      rfl
  | case3 => exact absurd whole (by decide)
  | case4 later _ ih =>
      have wholeLater : WholeLines later := by
        cases later with
        | nil => exact Or.inl rfl
        | cons second later => exact Or.inr (by simpa [WholeLines] using whole)
      rw [List.cons_append, List.cons_append, splitlines_return_feed, splitlines_return_feed,
        ih wholeLater]
      rfl
  | case5 second later other inside ih =>
      obtain ⟨_, wholeLater⟩ := whole.tail inside
      rw [List.cons_append, List.cons_append, splitlines_return other, splitlines_return other,
        ← List.cons_append, ih wholeLater]
      rfl
  | case6 byte later inside notReturn unlined ih =>
      obtain ⟨filled, _⟩ := whole.tail inside
      exact absurd unlined (splitlines_ne_nil filled)
  | case7 byte later inside notReturn line lines lines_eq ih =>
      obtain ⟨_, wholeLater⟩ := whole.tail inside
      rw [List.cons_append, splitlines_inside inside notReturn, splitlines_inside inside notReturn,
        ih wholeLater, lines_eq]
      rfl

theorem splitlines_line {line : Bytes} (plain : ∀ byte ∈ line, byte ≠ 10 ∧ byte ≠ 13) :
    splitlines (line ++ [10]) = [line] := by
  induction line with
  | nil => rfl
  | cons byte line ih =>
      obtain ⟨notFeed, notReturn⟩ := plain byte List.mem_cons_self
      rw [List.cons_append, splitlines_inside notFeed notReturn,
        ih fun byte member => plain byte (List.mem_cons_of_mem _ member)]
      rfl

/-! ## The last line -/

/-- The bytes behind the last line feed. -/
def lastLine (bytes : Bytes) : Bytes :=
  (bytes.reverse.takeWhile (· ≠ 10)).reverse

theorem lastLine_append (first second : Bytes) :
    lastLine (first ++ second) =
      if 10 ∈ second then lastLine second else lastLine first ++ second := by
  unfold lastLine
  rw [List.reverse_append, List.takeWhile_append]
  split
  · next all =>
      have missing : 10 ∉ second := by
        intro member
        have whole : second.reverse.takeWhile (· ≠ 10) = second.reverse :=
          (List.takeWhile_prefix _).eq_of_length all
        have inside := List.mem_takeWhile_imp (whole ▸ List.mem_reverse.mpr member)
        simp at inside
      rw [if_neg missing, List.reverse_append, List.reverse_reverse]
  · next cut =>
      rw [if_pos]
      by_contra absent
      apply cut
      rw [List.takeWhile_eq_self_iff.mpr]
      intro byte member
      simp only [ne_eq, decide_eq_true_eq]
      rintro rfl
      exact absent (List.mem_reverse.mp member)

end CarbonLab
