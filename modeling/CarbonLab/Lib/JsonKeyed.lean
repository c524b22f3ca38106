import CarbonLab.Lib.JsonText

/-!
# Values whose keys stay

A dictionary whose keys are in order and are read back as they are has the same keys after a
round trip, and is printed alike before and after it.
-/

namespace CarbonLab

namespace Json

/-- The keys of a dictionary are in order and are read back as they are. -/
def Keyed (value : Json) : Prop :=
  ∀ fields, value.obj? = some fields →
    Fields.Ordered fields ∧ ∀ field ∈ fields, mergeSurrogates field.1 = field.1

section

variable {value entry : Json} {key : Text}

theorem keyed_obj {fields : List (Text × Json)} : Keyed (.obj fields) ↔
    Fields.Ordered fields ∧ ∀ field ∈ fields, mergeSurrogates field.1 = field.1 := by
  constructor
  · exact fun keyed => keyed fields rfl
  · rintro keys _ ⟨⟩
    exact keys

/-- What is read back as it was has keys that stay. -/
theorem keyed_of_plain (plain : value.Plain) : value.Keyed := by
  intro fields is
  rw [obj?_eq_some] at is
  subst is
  exact ⟨plain.field.1, fun field member => (plain.field.2 field member).1⟩

theorem Keyed.set (keyed : value.Keyed) (keyPlain : mergeSurrogates key = key) :
    (value.set key entry).Keyed := by
  cases value with
  | obj fields =>
      obtain ⟨ordered, keys⟩ := keyed_obj.mp keyed
      refine keyed_obj.mpr ⟨ordered.set, fun field member => ?_⟩
      rcases Fields.mem_set member with rfl | old
      · exact keyPlain
      · exact keys field old
  | _ => exact keyed

theorem Keyed.erase (keyed : value.Keyed) (key : Text) : (value.erase key).Keyed := by
  cases value with
  | obj fields =>
      obtain ⟨ordered, keys⟩ := keyed_obj.mp keyed
      exact keyed_obj.mpr
        ⟨ordered.erase, fun field member => keys field (List.mem_of_mem_filter member)⟩
  | _ => exact keyed

/-- What stands under a key after a round trip. -/
theorem Keyed.get?_normalize (keyed : value.Keyed) (key : Text) :
    value.normalize.get? key = (value.get? key).map normalize := by
  cases value with
  | obj fields =>
      obtain ⟨ordered, keys⟩ := keyed_obj.mp keyed
      exact Json.get?_normalize ordered keys key
  | float bits =>
      obtain ⟨other, is⟩ := exists_float_normalize bits
      rw [is]
      rfl
  | _ => rfl

theorem Keyed.get_normalize (keyed : value.Keyed) (key : Text) :
    value.normalize.get key = (value.get key).normalize := by
  rw [Json.get, getD, keyed.get?_normalize, Json.get, getD]
  cases value.get? key with
  | none => rfl
  | some entry => rfl

/-- What stands in a dictionary that is written and read back. -/
theorem get_normalize_ofPairs {pairs : List (Text × Json)} (value : Json)
    (nodup : (pairs.map (·.1)).Nodup) (keys : ∀ pair ∈ pairs, mergeSurrogates pair.1 = pair.1)
    (member : (key, value) ∈ pairs) :
    (Json.obj (Fields.ofPairs pairs)).normalize.get key = value.normalize := by
  have keyed : (Json.obj (Fields.ofPairs pairs)).Keyed :=
    keyed_obj.mpr ⟨Fields.ordered_ofPairs pairs, Fields.forall_mem_ofPairs keys⟩
  have found : (Json.obj (Fields.ofPairs pairs)).get? key = some value :=
    Fields.get?_ofPairs member fun pair inside same =>
      congrArg Prod.snd (List.inj_on_of_nodup_map nodup inside member same)
  rw [keyed.get_normalize, Json.get, getD, found, Option.getD_some]

/-- The round trip of a dictionary with keys that stay goes through its values. -/
theorem Keyed.normalize_obj {fields : List (Text × Json)} (keyed : Keyed (.obj fields)) :
    (Json.obj fields).normalize = .obj (fields.map fun field => (field.1, field.2.normalize)) := by
  obtain ⟨ordered, keys⟩ := keyed_obj.mp keyed
  have kept : normalizeFields fields = fields.map fun field => (field.1, field.2.normalize) := by
    rw [normalizeFields_eq_map]
    refine List.map_congr_left fun field member => ?_
    rw [keys field member]
  have mapped : Fields.Ordered (fields.map fun field => (field.1, field.2.normalize)) :=
    List.pairwise_map.mpr ordered
  rw [normalize, kept, Fields.ofPairs_of_ordered mapped]

/-- To take a field away before or after a round trip is the same. -/
theorem Keyed.erase_normalize (keyed : value.Keyed) (key : Text) :
    value.normalize.erase key = (value.erase key).normalize := by
  cases value with
  | obj fields =>
      have later := (keyed.erase key).normalize_obj
      rw [keyed.normalize_obj, Json.erase, Json.erase, later, Fields.erase, Fields.erase,
        List.filter_map]
      rfl
  | float bits =>
      have same : (Json.float bits).erase key = .float bits := rfl
      obtain ⟨other, is⟩ := exists_float_normalize bits
      rw [same, is]
      rfl
  | _ => rfl

end

/-! ## Values that are printed alike -/

/-- Every dictionary in the value has keys that stay. -/
inductive Printed : Json → Prop
  | leaf {value : Json} : value.arr? = none → value.obj? = none → Printed value
  | arr {items : List Json} : (∀ item ∈ items, Printed item) → Printed (.arr items)
  | obj {fields : List (Text × Json)} : Fields.Ordered fields →
      (∀ field ∈ fields, mergeSurrogates field.1 = field.1) →
      (∀ field ∈ fields, Printed field.2) → Printed (.obj fields)

variable {value entry : Json} {key : Text}

@[simp] theorem printed_null : Printed .null := .leaf rfl rfl

@[simp] theorem printed_bool (value : Bool) : Printed (.bool value) := .leaf rfl rfl

@[simp] theorem printed_int (value : ℤ) : Printed (.int value) := .leaf rfl rfl

@[simp] theorem printed_str (value : Text) : Printed (.str value) := .leaf rfl rfl

theorem printed_of_plain (plain : value.Plain) : value.Printed := by
  induction value using Json.induct with
  | arr items ih => exact .arr fun item member => ih item member (plain.item item member)
  | obj fields ih =>
      obtain ⟨ordered, parts⟩ := plain.field
      exact .obj ordered (fun field member => (parts field member).1)
        fun field member => ih field member (parts field member).2
  | _ => exact .leaf rfl rfl

theorem Printed.item {items : List Json} (printed : Printed (.arr items)) :
    ∀ item ∈ items, item.Printed := by
  cases printed with
  | leaf none _ => cases none
  | arr all => exact all

theorem Printed.field {fields : List (Text × Json)} (printed : Printed (.obj fields)) :
    Fields.Ordered fields ∧
      ∀ field ∈ fields, mergeSurrogates field.1 = field.1 ∧ field.2.Printed := by
  cases printed with
  | leaf _ none => cases none
  | obj ordered keys values =>
      exact ⟨ordered, fun field member => ⟨keys field member, values field member⟩⟩

theorem Printed.keyed (printed : value.Printed) : value.Keyed := by
  intro fields is
  rw [obj?_eq_some] at is
  subst is
  exact ⟨printed.field.1, fun field member => (printed.field.2 field member).1⟩

theorem Printed.get? (printed : value.Printed) (found : value.get? key = some entry) :
    entry.Printed := by
  obtain ⟨fields, is, found⟩ := Option.bind_eq_some_iff.mp found
  rw [obj?_eq_some] at is
  subst is
  exact (printed.field.2 _ (Fields.mem_of_get? found)).2

theorem Printed.get (printed : value.Printed) (key : Text) : (value.get key).Printed := by
  rw [Json.get, getD]
  cases found : value.get? key with
  | none => exact printed_null
  | some item => exact printed.get? found

theorem Printed.set (printed : value.Printed) (keyPlain : mergeSurrogates key = key)
    (entryPrinted : entry.Printed) : (value.set key entry).Printed := by
  cases value with
  | obj fields =>
      obtain ⟨ordered, parts⟩ := printed.field
      have all : ∀ field ∈ Fields.set key entry fields,
          mergeSurrogates field.1 = field.1 ∧ field.2.Printed := by
        intro field member
        rcases Fields.mem_set member with rfl | old
        · exact ⟨keyPlain, entryPrinted⟩
        · exact parts field old
      exact .obj ordered.set (fun field member => (all field member).1)
        fun field member => (all field member).2
  | _ => exact printed

theorem Printed.erase (printed : value.Printed) (key : Text) : (value.erase key).Printed := by
  cases value with
  | obj fields =>
      obtain ⟨ordered, parts⟩ := printed.field
      exact .obj ordered.erase (fun field member => (parts field (List.mem_of_mem_filter member)).1)
        fun field member => (parts field (List.mem_of_mem_filter member)).2
  | _ => exact printed

theorem printed_ofPairs {pairs : List (Text × Json)}
    (all : ∀ pair ∈ pairs, mergeSurrogates pair.1 = pair.1 ∧ pair.2.Printed) :
    Printed (.obj (Fields.ofPairs pairs)) :=
  .obj (Fields.ordered_ofPairs pairs)
    (Fields.forall_mem_ofPairs fun pair member => (all pair member).1)
    (Fields.forall_mem_ofPairs fun pair member => (all pair member).2)

theorem sameText_arr {floats : FloatText} {items others : List Json}
    (same : List.Forall₂ (SameText floats) items others) :
    (Json.arr items).SameText floats (.arr others) := by
  intro style level
  have rest : ∀ {items others : List Json}, List.Forall₂ (SameText floats) items others → ∀ level,
      dumpItems floats style level items = dumpItems floats style level others := by
    intro items others same level
    induction same with
    | nil => rfl
    | cons first _ ih => rw [dumpItems, dumpItems, ih, first style level]
  cases same with
  | nil => rfl
  | cons first later => rw [dump, dump, rest later, first style (level + 1)]

/-- A value whose keys all stay is printed alike before and after a round trip. -/
theorem Printed.sameText_normalize {floats : FloatText} (printed : value.Printed) :
    value.normalize.SameText floats value := by
  induction value using Json.induct with
  | float bits =>
      intro style level
      rw [normalize]
      cases is : doubleValue bits with
      | nan =>
          have nan : doubleValue nanBits = .nan := by decide
          simp only [dump, floatText, is, nan]
      | infinite negative =>
          have infinite : doubleValue (infinityBits negative) = .infinite negative := by
            cases negative <;> decide
          simp only [dump, floatText, is, infinite]
      | finite number => rfl
  | str string =>
      intro style level
      rw [normalize, dump, dump, stringText_mergeSurrogates]
  | arr items ih =>
      rw [normalize, normalizeItems_eq_map]
      refine sameText_arr (List.forall₂_map_left_iff.mpr (List.forall₂_same.mpr ?_))
      exact fun item member => ih item member (printed.item item member)
  | obj fields ih =>
      rw [printed.keyed.normalize_obj]
      refine sameText_obj (List.forall₂_map_left_iff.mpr (List.forall₂_same.mpr ?_))
      exact fun field member => ⟨rfl, ih field member (printed.field.2 field member).2⟩
  | _ => exact fun style level => rfl

end Json

end CarbonLab
