import Mathlib

/-!
# JSON values as Python holds them

Strings are lists of code points and may hold lone surrogates.  A dictionary is kept
with its keys in order, so that two dictionaries are equal exactly when they hold the
same values.  `Json.equal` is Python's `==`, under which `True`, `1` and `1.0` are one
number.  A NaN differs from every number, but lists and dictionaries first ask whether two
items are one object, and `json.loads` has a single NaN object.
-/

namespace CarbonLab

/-- A code point of a Python string. -/
abbrev CodePoint := Fin 0x110000

/-- A Python string. -/
abbrev Text := List CodePoint

instance neZero_codePoints : NeZero 0x110000 := ⟨by decide⟩

instance : LawfulBEq CodePoint := inferInstance

instance : LawfulBEq Text := inferInstance

/-- The text of a literal. -/
def text (literal : String) : Text :=
  literal.toList.map fun letter => Fin.ofNat _ letter.toNat

instance : Coe String Text := ⟨text⟩

theorem text_inj {first second : String} : text first = text second ↔ first = second := by
  constructor
  · intro same
    apply String.toList_inj.mp
    refine List.map_injective_iff.mpr ?_ same
    intro left right codes
    have below (letter : Char) : letter.toNat < 0x110000 := by
      have valid := letter.valid
      simp only [UInt32.isValidChar, Nat.isValidChar] at valid
      simp only [Char.toNat]
      omega
    have values := congrArg Fin.val codes
    simp only [Fin.ofNat, Nat.mod_eq_of_lt (below _)] at values
    exact Char.toNat_inj.mp values
  · exact congrArg text

@[simp] theorem text_eq_text (first second : String) :
    (text first = text second) = (first = second) :=
  propext text_inj

/-- A value that `json.loads` returns. -/
inductive Json
  | null
  | bool (value : Bool)
  | int (value : Int)
  /-- A double, by its bits. -/
  | float (bits : BitVec 64)
  | str (value : Text)
  | arr (items : List Json)
  | obj (fields : List (Text × Json))
  deriving Repr

namespace Json

mutual

/-- Decide whether two values are the same. -/
def decideEq : (first second : Json) → Decidable (first = second)
  | .null, .null => isTrue rfl
  | .bool left, .bool right => decidable_of_iff (left = right) (by simp)
  | .int left, .int right => decidable_of_iff (left = right) (by simp)
  | .float left, .float right => decidable_of_iff (left = right) (by simp)
  | .str left, .str right => decidable_of_iff (left = right) (by simp)
  | .arr left, .arr right =>
      match decideEqItems left right with
      | isTrue same => isTrue (congrArg _ same)
      | isFalse differ => isFalse fun same => differ (arr.inj same)
  | .obj left, .obj right =>
      match decideEqFields left right with
      | isTrue same => isTrue (congrArg _ same)
      | isFalse differ => isFalse fun same => differ (obj.inj same)
  | .null, .bool _ | .null, .int _ | .null, .float _ | .null, .str _ | .null, .arr _
  | .null, .obj _ | .bool _, .null | .bool _, .int _ | .bool _, .float _ | .bool _, .str _
  | .bool _, .arr _ | .bool _, .obj _ | .int _, .null | .int _, .bool _ | .int _, .float _
  | .int _, .str _ | .int _, .arr _ | .int _, .obj _ | .float _, .null | .float _, .bool _
  | .float _, .int _ | .float _, .str _ | .float _, .arr _ | .float _, .obj _ | .str _, .null
  | .str _, .bool _ | .str _, .int _ | .str _, .float _ | .str _, .arr _ | .str _, .obj _
  | .arr _, .null | .arr _, .bool _ | .arr _, .int _ | .arr _, .float _ | .arr _, .str _
  | .arr _, .obj _ | .obj _, .null | .obj _, .bool _ | .obj _, .int _ | .obj _, .float _
  | .obj _, .str _ | .obj _, .arr _ => isFalse (by simp)

/-- Decide whether two lists of values are the same. -/
def decideEqItems : (first second : List Json) → Decidable (first = second)
  | [], [] => isTrue rfl
  | [], _ :: _ => isFalse (by simp)
  | _ :: _, [] => isFalse (by simp)
  | left :: lefts, right :: rights =>
      match decideEq left right with
      | isFalse differ => isFalse fun same => differ (List.cons.inj same).1
      | isTrue same =>
          match decideEqItems lefts rights with
          | isTrue rest => isTrue (by rw [same, rest])
          | isFalse differ => isFalse fun same => differ (List.cons.inj same).2

/-- Decide whether two lists of fields are the same. -/
def decideEqFields : (first second : List (Text × Json)) → Decidable (first = second)
  | [], [] => isTrue rfl
  | [], _ :: _ => isFalse (by simp)
  | _ :: _, [] => isFalse (by simp)
  | (key, left) :: lefts, (key', right) :: rights =>
      if keys : key = key' then
        match decideEq left right with
        | isFalse differ => isFalse fun same => differ (by simp_all)
        | isTrue same =>
            match decideEqFields lefts rights with
            | isTrue rest => isTrue (by rw [keys, same, rest])
            | isFalse differ => isFalse fun same => differ (List.cons.inj same).2
      else isFalse fun same => keys (by simp_all)

end

instance : DecidableEq Json := decideEq

/-- Induction over a value with its items and fields. -/
theorem induct {motive : Json → Prop} (null : motive .null) (bool : ∀ value, motive (.bool value))
    (int : ∀ value, motive (.int value)) (float : ∀ bits, motive (.float bits))
    (str : ∀ value, motive (.str value))
    (arr : ∀ items, (∀ item ∈ items, motive item) → motive (.arr items))
    (obj : ∀ fields, (∀ field ∈ fields, motive field.2) → motive (.obj fields))
    (value : Json) : motive value :=
  @Json.rec motive (fun items => ∀ item ∈ items, motive item)
    (fun fields => ∀ field ∈ fields, motive field.2) (fun field => motive field.2)
    null bool int float str arr obj (by simp)
    (fun _ _ first rest => by simpa using ⟨first, rest⟩) (by simp)
    (fun _ _ first rest => List.forall_mem_cons.mpr ⟨first, rest⟩)
    (fun _ _ value => value) value

end Json

/-! ## Dictionaries -/

namespace Fields

variable {key other : Text} {value : Json} {fields : List (Text × Json)}

/-- The value under a key. -/
def get? (key : Text) : List (Text × Json) → Option Json
  | [] => none
  | (first, value) :: rest => if first = key then some value else get? key rest

/-- Store a value under a key, in the place of the key's old value or in the key's
place in the order. -/
def set (key : Text) (value : Json) : List (Text × Json) → List (Text × Json)
  | [] => [(key, value)]
  | (first, old) :: rest =>
      if first = key then (key, value) :: rest
      else if key < first then (key, value) :: (first, old) :: rest
      else (first, old) :: set key value rest

/-- Remove a key. -/
def erase (key : Text) (fields : List (Text × Json)) : List (Text × Json) :=
  fields.filter fun field => field.1 ≠ key

/-- The dictionary of a list of pairs; of two values under one key the later one
stays. -/
def ofPairs (pairs : List (Text × Json)) : List (Text × Json) :=
  pairs.foldl (fun fields pair => set pair.1 pair.2 fields) []

/-- The keys are in order and no key occurs twice. -/
def Ordered (fields : List (Text × Json)) : Prop :=
  fields.Pairwise fun left right => left.1 < right.1

theorem get?_set : get? other (set key value fields) =
    if key = other then some value else get? other fields := by
  induction fields with
  | nil => rfl
  | cons field rest ih =>
      obtain ⟨first, old⟩ := field
      rw [set]
      split
      · next same =>
          subst same
          simp only [get?]
          split <;> rfl
      · next differs =>
          split
          · simp only [get?]
          · simp only [get?, ih]
            by_cases found : first = other
            · have : key ≠ other := fun same => differs (found.trans same.symm)
              simp [found, this]
            · simp [found]

@[simp] theorem get?_set_self : get? key (set key value fields) = some value := by
  simp [get?_set]

theorem get?_set_of_ne (differs : key ≠ other) :
    get? other (set key value fields) = get? other fields := by
  simp [get?_set, differs]

theorem get?_erase : get? other (erase key fields) =
    if key = other then none else get? other fields := by
  induction fields with
  | nil => simp [erase, get?]
  | cons field rest ih =>
      obtain ⟨first, old⟩ := field
      by_cases same : first = key
      · subst same
        have dropped : erase first ((first, old) :: rest) = erase first rest := by simp [erase]
        rw [dropped, ih]
        by_cases found : first = other <;> simp [get?, found]
      · have kept : erase key ((first, old) :: rest) = (first, old) :: erase key rest := by
          simp [erase, same]
        rw [kept, get?, get?, ih]
        by_cases found : first = other
        · have : key ≠ other := fun equal => same (found.trans equal.symm)
          simp [found, this]
        · simp [found]

theorem mem_of_get? (found : get? key fields = some value) : (key, value) ∈ fields := by
  induction fields with
  | nil => cases found
  | cons field rest ih =>
      obtain ⟨first, old⟩ := field
      rw [get?] at found
      split at found
      · next same =>
          cases found
          rw [same]
          exact List.mem_cons_self
      · exact List.mem_cons_of_mem _ (ih found)

theorem key_ne_of_get? (absent : get? key fields = none) : ∀ field ∈ fields, field.1 ≠ key := by
  induction fields with
  | nil => simp
  | cons field rest ih =>
      obtain ⟨first, old⟩ := field
      rw [get?] at absent
      split at absent
      · cases absent
      · next differs => exact List.forall_mem_cons.mpr ⟨differs, ih absent⟩

theorem mem_set {field : Text × Json} (member : field ∈ set key value fields) :
    field = (key, value) ∨ field ∈ fields := by
  induction fields with
  | nil => exact Or.inl (List.mem_singleton.mp member)
  | cons head rest ih =>
      obtain ⟨first, old⟩ := head
      rw [set] at member
      split at member
      · exact (List.mem_cons.mp member).imp id (List.mem_cons_of_mem _)
      · split at member
        · exact List.mem_cons.mp member
        · rcases List.mem_cons.mp member with rfl | later
          · exact Or.inr List.mem_cons_self
          · exact (ih later).imp id (List.mem_cons_of_mem _)

theorem Ordered.set (ordered : Ordered fields) : Ordered (set key value fields) := by
  induction fields with
  | nil => exact List.pairwise_singleton _ _
  | cons field rest ih =>
      obtain ⟨first, old⟩ := field
      obtain ⟨before, later⟩ := List.pairwise_cons.mp ordered
      rw [Fields.set]
      split
      · next same =>
          subst same
          exact List.pairwise_cons.mpr ⟨before, later⟩
      · next differs =>
          split
          · next less =>
              refine List.pairwise_cons.mpr ⟨?_, ordered⟩
              intro field member
              rcases List.mem_cons.mp member with rfl | member
              · exact less
              · exact less.trans (before field member)
          · next notLess =>
              refine List.pairwise_cons.mpr ⟨?_, ih later⟩
              intro field member
              rcases mem_set member with rfl | member
              · exact lt_of_le_of_ne (not_lt.mp notLess) differs
              · exact before field member

theorem ordered_ofPairs (pairs : List (Text × Json)) : Ordered (ofPairs pairs) := by
  refine List.foldlRecOn pairs _ (List.Pairwise.nil) ?_
  intro fields ordered pair _
  exact Ordered.set ordered

theorem forall_mem_ofPairs {holds : Text × Json → Prop} {pairs : List (Text × Json)}
    (all : ∀ pair ∈ pairs, holds pair) : ∀ field ∈ ofPairs pairs, holds field := by
  have build : ∀ done : List (Text × Json), (∀ field ∈ done, holds field) →
      ∀ field ∈ pairs.foldl (fun fields pair => set pair.1 pair.2 fields) done, holds field := by
    induction pairs with
    | nil => exact fun _ kept => kept
    | cons pair pairs ih =>
        intro done kept
        refine ih (fun pair member => all pair (List.mem_cons_of_mem _ member)) _ ?_
        intro field stored
        rcases mem_set stored with rfl | stored
        · exact all pair List.mem_cons_self
        · exact kept field stored
  exact build [] (by simp)

theorem get?_ofPairs {pairs : List (Text × Json)} (member : (key, value) ∈ pairs)
    (only : ∀ pair ∈ pairs, pair.1 = key → pair.2 = value) :
    get? key (ofPairs pairs) = some value := by
  rw [ofPairs]
  generalize ([] : List (Text × Json)) = done
  induction pairs generalizing done with
  | nil => cases member
  | cons pair pairs ih =>
      obtain ⟨_, rest⟩ := List.forall_mem_cons.mp only
      rw [List.foldl_cons]
      rcases List.mem_cons.mp member with rfl | later
      · refine List.foldlRecOn (motive := fun fields => get? key fields = some value) pairs _
          get?_set_self ?_
        intro fields found other there
        rw [get?_set, found]
        split
        · next same => rw [rest other there same]
        · rfl
      · exact ih later rest _

/-- Fields with the same keys and related values. -/
def Related (related : Json → Json → Prop) : List (Text × Json) → List (Text × Json) → Prop :=
  List.Forall₂ fun field other => field.1 = other.1 ∧ related field.2 other.2

theorem Related.set {related : Json → Json → Prop} {fields others : List (Text × Json)}
    {value' : Json} (rest : Related related fields others) (here : related value value') :
    Related related (set key value fields) (set key value' others) := by
  induction rest with
  | nil => exact .cons ⟨rfl, here⟩ .nil
  | @cons field other fields others first rest ih =>
      obtain ⟨first', old⟩ := field
      obtain ⟨first'', old'⟩ := other
      obtain ⟨rfl, same⟩ := first
      rw [Fields.set, Fields.set]
      split
      · exact .cons ⟨rfl, here⟩ rest
      · split
        · exact .cons ⟨rfl, here⟩ (.cons ⟨rfl, same⟩ rest)
        · exact .cons ⟨rfl, same⟩ ih

/-- Dictionaries that are built from related values are related. -/
theorem Related.ofPairs {related : Json → Json → Prop} {pairs others : List (Text × Json)}
    (all : Related related pairs others) :
    Related related (ofPairs pairs) (Fields.ofPairs others) := by
  have build : ∀ done done' : List (Text × Json), Related related done done' →
      Related related (pairs.foldl (fun fields pair => Fields.set pair.1 pair.2 fields) done)
        (others.foldl (fun fields pair => Fields.set pair.1 pair.2 fields) done') := by
    induction all with
    | nil => exact fun _ _ same => same
    | @cons pair other pairs others first rest ih =>
        intro done done' same
        refine ih _ _ ?_
        change Related related (Fields.set pair.1 pair.2 done) (Fields.set other.1 other.2 done')
        rw [← first.1]
        exact same.set first.2
  exact build [] [] .nil

/-- A key behind all the others is stored at the end. -/
theorem set_append (behind : ∀ field ∈ fields, field.1 < key) :
    set key value fields = fields ++ [(key, value)] := by
  induction fields with
  | nil => rfl
  | cons field rest ih =>
      obtain ⟨first, old⟩ := field
      have less : first < key := behind _ List.mem_cons_self
      rw [set, if_neg less.ne, if_neg less.not_gt,
        ih fun field member => behind field (List.mem_cons_of_mem _ member)]
      rfl

/-- A dictionary is the dictionary of its own pairs. -/
theorem ofPairs_of_ordered (ordered : Ordered fields) : ofPairs fields = fields := by
  have build : ∀ done rest : List (Text × Json), Ordered (done ++ rest) →
      rest.foldl (fun fields pair => set pair.1 pair.2 fields) done = done ++ rest := by
    intro done rest
    induction rest generalizing done with
    | nil => simp
    | cons field rest ih =>
        intro ordered
        have behind : ∀ earlier ∈ done, earlier.1 < field.1 := fun earlier member =>
          (List.pairwise_append.mp ordered).2.2 earlier member field List.mem_cons_self
        rw [List.foldl_cons, set_append behind, ih _ (by simpa using ordered)]
        simp
  exact build [] fields ordered

/-- Two dictionaries with the same values under all keys are the same. -/
theorem Ordered.ext {first second : List (Text × Json)} (left : Ordered first)
    (right : Ordered second) (same : ∀ key, get? key first = get? key second) :
    first = second := by
  have absent {key : Text} {fields : List (Text × Json)}
      (behind : ∀ field ∈ fields, key < field.1) : get? key fields = none := by
    by_contra found
    obtain ⟨value, found⟩ := Option.ne_none_iff_exists'.mp found
    exact lt_irrefl _ (behind _ (mem_of_get? found))
  induction first generalizing second with
  | nil =>
      cases second with
      | nil => rfl
      | cons field rest => simpa [get?] using same field.1
  | cons field rest ih =>
      cases second with
      | nil => simpa [get?] using same field.1
      | cons field' rest' =>
          obtain ⟨key, value⟩ := field
          obtain ⟨key', value'⟩ := field'
          obtain ⟨before, later⟩ := List.pairwise_cons.mp left
          obtain ⟨before', later'⟩ := List.pairwise_cons.mp right
          have keys : key = key' := by
            rcases lt_trichotomy key key' with less | equal | less
            · have gone : get? key ((key', value') :: rest') = none := by
                apply absent
                intro field member
                rcases List.mem_cons.mp member with rfl | member
                · exact less
                · exact less.trans (before' field member)
              have found := same key
              rw [gone] at found
              simp [get?] at found
            · exact equal
            · have gone : get? key' ((key, value) :: rest) = none := by
                apply absent
                intro field member
                rcases List.mem_cons.mp member with rfl | member
                · exact less
                · exact less.trans (before field member)
              have found := same key'
              rw [gone] at found
              simp [get?] at found
          subst keys
          have values : value = value' := by simpa [get?] using same key
          subst values
          congr 1
          refine ih later later' fun other => ?_
          by_cases equal : key = other
          · subst equal
            rw [absent before, absent before']
          · simpa [get?, equal] using same other

theorem Ordered.nodup (ordered : Ordered fields) : (fields.map (·.1)).Nodup :=
  List.pairwise_map.mpr (ordered.imp ne_of_lt)

theorem Ordered.erase (ordered : Ordered fields) : Ordered (erase key fields) :=
  List.Pairwise.sublist List.filter_sublist ordered

/-- A new key is taken out again. -/
theorem erase_set (ordered : Ordered fields) (absent : get? key fields = none) :
    erase key (set key value fields) = fields := by
  refine (Ordered.set ordered).erase.ext ordered fun other => ?_
  rw [get?_erase]
  split
  · next same => rw [← same, absent]
  · next differs => rw [get?_set_of_ne differs]

theorem get?_ofPairs_eq_none {pairs : List (Text × Json)} (absent : ∀ pair ∈ pairs, pair.1 ≠ key) :
    get? key (ofPairs pairs) = none := by
  by_contra found
  obtain ⟨value, found⟩ := Option.ne_none_iff_exists'.mp found
  exact forall_mem_ofPairs absent _ (mem_of_get? found) rfl

end Fields

/-! ## Numbers and equality -/

/-- What a number stands for. -/
inductive Numeral
  | finite (value : ℚ)
  | infinite (negative : Bool)
  | nan
  deriving DecidableEq

/-- The number that a double stands for. -/
def doubleValue (bits : BitVec 64) : Numeral :=
  let exponent := (bits.extractLsb' 52 11).toNat
  let fraction := (bits.extractLsb' 0 52).toNat
  let sign : ℚ := if bits.msb then -1 else 1
  if exponent = 2047 then
    if fraction = 0 then .infinite bits.msb else .nan
  else if exponent = 0 then .finite (sign * fraction / 2 ^ 1074)
  else .finite (sign * (2 ^ 52 + fraction) * 2 ^ exponent / 2 ^ 1075)

/-- Numbers compare by value; nothing equals a NaN. -/
def Numeral.equal : Numeral → Numeral → Bool
  | .finite left, .finite right => left = right
  | .infinite left, .infinite right => left = right
  | _, _ => false

theorem Numeral.equal_trans {first second third : Numeral} (left : first.equal second = true)
    (right : second.equal third = true) : first.equal third = true := by
  cases first <;> cases second <;> simp [equal] at left <;> subst left <;> exact right

namespace Json

/-- The number that a value is; booleans are numbers. -/
def number? : Json → Option Numeral
  | .bool value => some (.finite (if value then 1 else 0))
  | .int value => some (.finite value)
  | .float bits => some (doubleValue bits)
  | _ => none

mutual

/-- Python's `==`. -/
def equal : Json → Json → Bool
  | .null, .null => true
  | .str left, .str right => left = right
  | .int left, .int right => left = right
  | .arr left, .arr right => equalItems left right
  | .obj left, .obj right => equalFields left right
  | left, right =>
      match left.number?, right.number? with
      | some left, some right => left.equal right
      | _, _ => false

/-- Python's `==` on lists: items that are one object are not compared. -/
def equalItems : List Json → List Json → Bool
  | [], [] => true
  | left :: lefts, right :: rights =>
      (left = right || equal left right) && equalItems lefts rights
  | _, _ => false

/-- Python's `==` on dictionaries, whose values are compared as items are. -/
def equalFields : List (Text × Json) → List (Text × Json) → Bool
  | [], [] => true
  | (key, left) :: lefts, (key', right) :: rights =>
      key = key' && (left = right || equal left right) && equalFields lefts rights
  | _, _ => false

end

example : equal (.bool true) (.int 1) = true := by
  simp [equal, number?, Numeral.equal]

@[simp] theorem equal_str {value : Json} {string : Text} :
    equal value (.str string) = true ↔ value = .str string := by
  cases value <;> simp [equal, number?]

@[simp] theorem str_equal {value : Json} {string : Text} :
    equal (.str string) value = true ↔ value = .str string := by
  cases value <;> simp [equal, number?, eq_comm]

@[simp] theorem equal_null {value : Json} : equal value .null = true ↔ value = .null := by
  cases value <;> simp [equal, number?]

@[simp] theorem null_equal {value : Json} : equal .null value = true ↔ value = .null := by
  cases value <;> simp [equal, number?]

@[simp] theorem int_equal_int {left right : Int} :
    equal (.int left) (.int right) = true ↔ left = right := by
  simp [equal]

/-- Numbers compare as numbers, whatever their types are. -/
theorem equal_of_number {left right : Json} {number number' : Numeral}
    (leftIs : left.number? = some number) (rightIs : right.number? = some number') :
    equal left right = number.equal number' := by
  cases left <;> cases right <;> simp_all [equal, number?]
  subst_vars
  simp [Numeral.equal]

/-- What equals a number is one. -/
theorem number_of_equal {left right : Json} {number : Numeral}
    (is : left.number? = some number) (same : equal left right = true) :
    ∃ number', right.number? = some number' ∧ number.equal number' = true := by
  cases found : right.number? with
  | some number' => exact ⟨number', rfl, equal_of_number is found ▸ same⟩
  | none =>
      cases left <;> cases right <;> simp_all [equal, number?]

/-- One object, or `==`: what members of containers are compared by. -/
def Alike (left right : Json) : Prop := left = right ∨ equal left right = true

instance : DecidableRel Alike := fun left right =>
  inferInstanceAs (Decidable (left = right ∨ equal left right = true))

@[simp] theorem alike_self (value : Json) : Alike value value := Or.inl rfl

theorem equalItems_iff {left right : List Json} :
    equalItems left right = true ↔ List.Forall₂ Alike left right := by
  induction left generalizing right with
  | nil => cases right <;> simp [equalItems]
  | cons first left ih => cases right <;> simp [equalItems, Alike, ih]

theorem equalFields_iff {left right : List (Text × Json)} :
    equalFields left right = true ↔ List.Forall₂ (fun left right => left.1 = right.1 ∧
      Alike left.2 right.2) left right := by
  induction left generalizing right with
  | nil => cases right <;> simp [equalFields]
  | cons first left ih => cases right <;> simp [equalFields, Alike, ih, and_assoc]

@[simp] theorem equalItems_self (items : List Json) : equalItems items items = true :=
  equalItems_iff.mpr (List.forall₂_same.mpr fun item _ => alike_self item)

/-- A NaN. -/
def isNan (value : Json) : Bool := value.number? = some .nan

/-- Only a NaN differs from itself. -/
theorem equal_self {value : Json} : equal value value = true ↔ value.isNan = false := by
  cases value with
  | arr items => simp [equal, isNan, number?]
  | obj fields =>
      have same : equalFields fields fields = true :=
        equalFields_iff.mpr (List.forall₂_same.mpr fun field _ => ⟨rfl, alike_self field.2⟩)
      simp [equal, isNan, number?, same]
  | float bits =>
      cases is : doubleValue bits <;> simp [equal, isNan, number?, is, Numeral.equal]
  | bool value => simp [equal, isNan, number?, Numeral.equal]
  | _ => simp [equal, isNan, number?]

theorem arr_equal {items : List Json} {value : Json} (same : equal (.arr items) value = true) :
    ∃ others, value = .arr others ∧ equalItems items others = true := by
  cases value <;> simp_all [equal, number?]

theorem obj_equal {fields : List (Text × Json)} {value : Json}
    (same : equal (.obj fields) value = true) :
    ∃ others, value = .obj others ∧ equalFields fields others = true := by
  cases value <;> simp_all [equal, number?]

/-- Lists that are related item by item, through lists in the middle. -/
theorem forall₂_trans {α : Type} {related : α → α → Prop} {firsts seconds thirds : List α}
    (step : ∀ first ∈ firsts, ∀ second third, related first second → related second third →
      related first third)
    (left : List.Forall₂ related firsts seconds) (right : List.Forall₂ related seconds thirds) :
    List.Forall₂ related firsts thirds := by
  induction left generalizing thirds with
  | nil => exact right
  | @cons first second firsts seconds here _ ih =>
      obtain ⟨third, thirds, there, rest, rfl⟩ := List.forall₂_cons_left_iff.mp right
      obtain ⟨stepHere, stepRest⟩ := List.forall_mem_cons.mp step
      exact List.Forall₂.cons (stepHere second third here there) (ih stepRest rest)

/-- Numbers of all types are compared as numbers. -/
theorem equal_trans_of_number {first second third : Json} {number : Numeral}
    (is : first.number? = some number) (left : equal first second = true)
    (right : equal second third = true) : equal first third = true := by
  obtain ⟨second', secondIs, same⟩ := number_of_equal is left
  obtain ⟨third', thirdIs, same'⟩ := number_of_equal secondIs right
  rw [equal_of_number is thirdIs]
  exact Numeral.equal_trans same same'

/-- Items that are alike, where `==` is transitive from the first of them on. -/
theorem Alike.trans_of {first second third : Json}
    (step : ∀ {second third : Json}, equal first second = true → equal second third = true →
      equal first third = true)
    (left : Alike first second) (right : Alike second third) : Alike first third := by
  rcases left with rfl | left
  · exact right
  · rcases right with rfl | right
    · exact Or.inr left
    · exact Or.inr (step left right)

theorem equal_trans {first second third : Json} (left : equal first second = true)
    (right : equal second third = true) : equal first third = true := by
  induction first using induct generalizing second third with
  | null =>
      rw [null_equal] at left
      exact left ▸ right
  | bool value => exact equal_trans_of_number rfl left right
  | int value => exact equal_trans_of_number rfl left right
  | float bits => exact equal_trans_of_number rfl left right
  | str string =>
      rw [str_equal] at left
      exact left ▸ right
  | arr items ih =>
      obtain ⟨seconds, rfl, before⟩ := arr_equal left
      obtain ⟨thirds, rfl, after⟩ := arr_equal right
      rw [equal, equalItems_iff]
      rw [equalItems_iff] at before after
      exact forall₂_trans (fun item member _ _ => Alike.trans_of (ih item member)) before after
  | obj fields ih =>
      obtain ⟨seconds, rfl, before⟩ := obj_equal left
      obtain ⟨thirds, rfl, after⟩ := obj_equal right
      rw [equal, equalFields_iff]
      rw [equalFields_iff] at before after
      refine forall₂_trans (fun field member _ _ here there => ?_) before after
      exact ⟨here.1.trans there.1, here.2.trans_of (ih field member) there.2⟩

theorem Alike.trans {first second third : Json} (left : Alike first second)
    (right : Alike second third) : Alike first third :=
  left.trans_of equal_trans right

@[simp] theorem alike_str {value : Json} {string : Text} :
    Alike value (.str string) ↔ value = .str string := by
  simp [Alike]

theorem str_equal_comm (string : Text) (value : Json) :
    equal (.str string) value = equal value (.str string) := by
  rw [Bool.eq_iff_iff, str_equal, equal_str]

/-- `isinstance(value, int)`, with the integer: booleans count. -/
def int? : Json → Option Int
  | .bool value => some (if value then 1 else 0)
  | .int value => some value
  | _ => none

/-- `isinstance(value, int) and not isinstance(value, bool)`, with the integer. -/
def plainInt? : Json → Option Int
  | .int value => some value
  | _ => none

/-- `bool(value)`. -/
def truthy : Json → Bool
  | .null => false
  | .bool value => value
  | .int value => value ≠ 0
  | .float bits => doubleValue bits ≠ .finite 0
  | .str value => value ≠ []
  | .arr items => items ≠ []
  | .obj fields => fields ≠ []

/-- The string that a value is. -/
def str? : Json → Option Text
  | .str value => some value
  | _ => none

/-- The items of an array. -/
def arr? : Json → Option (List Json)
  | .arr items => some items
  | _ => none

/-- The fields of a dictionary. -/
def obj? : Json → Option (List (Text × Json))
  | .obj fields => some fields
  | _ => none

/-- The value of a dictionary under a key. -/
def get? (value : Json) (key : Text) : Option Json :=
  value.obj?.bind (Fields.get? key)

/-- `value.get(key, default)` of a dictionary. -/
def getD (value : Json) (key : Text) (default : Json) : Json :=
  (value.get? key).getD default

/-- `value.get(key)` of a dictionary. -/
def get (value : Json) (key : Text) : Json :=
  value.getD key .null

/-- `value[key] = item` on a dictionary. -/
def set (value : Json) (key : Text) (item : Json) : Json :=
  match value with
  | .obj fields => .obj (Fields.set key item fields)
  | other => other

/-- A dictionary without a key. -/
def erase (value : Json) (key : Text) : Json :=
  match value with
  | .obj fields => .obj (Fields.erase key fields)
  | other => other

theorem str?_eq_some {value : Json} {string : Text} :
    value.str? = some string ↔ value = .str string := by
  cases value <;> simp [str?]

theorem arr?_eq_some {value : Json} {items : List Json} :
    value.arr? = some items ↔ value = .arr items := by
  cases value <;> simp [arr?]

theorem obj?_eq_some {value : Json} {fields : List (Text × Json)} :
    value.obj? = some fields ↔ value = .obj fields := by
  cases value <;> simp [obj?]

/-! ## Fields of dictionaries -/

theorem get?_erase (value : Json) {key other : Text} (differs : key ≠ other) :
    (value.erase key).get? other = value.get? other := by
  cases value with
  | obj fields =>
      rw [erase, get?, get?, obj?, obj?, Option.bind_some, Option.bind_some, Fields.get?_erase,
        if_neg differs]
  | _ => rfl

theorem get_erase (value : Json) {key other : Text} (differs : key ≠ other) :
    (value.erase key).get other = value.get other := by
  rw [get, getD, get?_erase value differs, get, getD]

theorem get?_obj_set {fields : List (Text × Json)} {key other : Text} {item : Json} :
    get? (.obj (Fields.set key item fields)) other =
      if key = other then some item else get? (.obj fields) other :=
  Fields.get?_set

theorem isSome_set {value : Json} {key : Text} {item : Json} :
    (value.set key item).obj?.isSome = value.obj?.isSome := by
  cases value <;> rfl

theorem isSome_erase {value : Json} {key : Text} :
    (value.erase key).obj?.isSome = value.obj?.isSome := by
  cases value <;> rfl

theorem get?_set {value : Json} (object : value.obj?.isSome) {key other : Text} {item : Json} :
    (value.set key item).get? other = if key = other then some item else value.get? other := by
  cases value with
  | obj fields => exact get?_obj_set
  | _ => cases object

theorem get?_set_of_ne (value : Json) {key other : Text} {item : Json} (differs : key ≠ other) :
    (value.set key item).get? other = value.get? other := by
  cases value with
  | obj fields => exact get?_obj_set.trans (if_neg differs)
  | _ => rfl

theorem get_set_of_ne (value : Json) {key other : Text} {item : Json} (differs : key ≠ other) :
    (value.set key item).get other = value.get other := by
  rw [get, getD, get?_set_of_ne value differs, get, getD]

theorem get_set_self {value : Json} (object : value.obj?.isSome) {key : Text} {item : Json} :
    (value.set key item).get key = item := by
  rw [get, getD, get?_set object, if_pos rfl, Option.getD_some]

/-- Dictionaries that are `==` have values that are alike. -/
theorem get_equal {first second : Json} (same : equal first second = true) (key : Text) :
    Alike (first.get key) (second.get key) := by
  have nothing {value : Json} (absent : value.obj? = none) : value.get key = .null := by
    rw [get, getD, get?, absent]
    rfl
  cases first with
  | obj fields =>
      obtain ⟨others, rfl, related⟩ := obj_equal same
      clear same nothing
      rw [equalFields_iff] at related
      induction related with
      | nil => exact alike_self _
      | @cons field other fields others here _ ih =>
          obtain ⟨name, value⟩ := field
          obtain ⟨name', value'⟩ := other
          obtain ⟨rfl, here⟩ := here
          simp only [get, getD, get?, obj?, Option.bind_some, Fields.get?] at ih ⊢
          split
          · exact here
          · exact ih
  | _ =>
      have other : second.obj? = none := by
        cases second with
        | obj fields => simp [equal, number?] at same
        | _ => rfl
      rw [nothing rfl, nothing other]
      exact alike_self _

theorem get?_of_get_ne_null {value : Json} {key : Text} (found : value.get key ≠ .null) :
    value.get? key = some (value.get key) := by
  rw [get, getD] at found ⊢
  cases is : value.get? key with
  | none => simp [is] at found
  | some item => rfl

/-- A dictionary is told by one of its fields and the rest. -/
theorem eq_of_erase_eq {first second : List (Text × Json)} {key : Text}
    (left : Fields.Ordered first) (right : Fields.Ordered second)
    (same : erase (.obj first) key = erase (.obj second) key)
    (item : get? (.obj first) key = get? (.obj second) key) : first = second := by
  refine left.ext right fun other => ?_
  by_cases equal : key = other
  · subst equal
    exact item
  · have rest := get?_erase (.obj first) equal
    rw [same, get?_erase _ equal] at rest
    exact rest.symm

end Json

end CarbonLab
