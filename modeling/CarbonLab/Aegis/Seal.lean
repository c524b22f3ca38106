import CarbonLab.Aegis.Host

/-!
# Sealed dictionaries

Records, anchors and states carry the digest of their other fields under a key of their
own.
-/

namespace CarbonLab.Aegis

/-- A dictionary with the digest of its fields under a key. -/
def sealed (host : Host) (key : Text) (pairs : List (Text × Json)) : Json :=
  .obj (Fields.set key (.str (host.digest (.obj (Fields.ofPairs pairs)))) (Fields.ofPairs pairs))

/-- Fields to seal: plain keys, and none of them the key of the digest. -/
def Unsealed (key : Text) (pairs : List (Text × Json)) : Prop :=
  mergeSurrogates key = key ∧ ∀ pair ∈ pairs, mergeSurrogates pair.1 = pair.1 ∧ pair.1 ≠ key

variable {host : Host} {key : Text} {pairs : List (Text × Json)}

theorem get_sealed {other : Text} (differs : key ≠ other) :
    (sealed host key pairs).get other = (Json.obj (Fields.ofPairs pairs)).get other := by
  rw [sealed, Json.get, Json.getD, Json.get?_obj_set, if_neg differs]
  rfl

theorem get_sealed_self :
    (sealed host key pairs).get key = .str (host.digest (.obj (Fields.ofPairs pairs))) := by
  rw [sealed, Json.get, Json.getD, Json.get?_obj_set, if_pos rfl, Option.getD_some]

namespace Unsealed

theorem absent (proper : Unsealed key pairs) : Fields.get? key (Fields.ofPairs pairs) = none :=
  Fields.get?_ofPairs_eq_none fun pair member => (proper.2 pair member).2

theorem get? (proper : Unsealed key pairs) (nodup : (pairs.map (·.1)).Nodup) {other : Text}
    {value : Json} (member : (other, value) ∈ pairs) :
    (sealed host key pairs).get? other = some value := by
  have differs : key ≠ other := fun same => (proper.2 _ member).2 same.symm
  rw [sealed, Json.get?_obj_set, if_neg differs]
  refine Fields.get?_ofPairs member fun pair inside same => ?_
  exact congrArg Prod.snd (List.inj_on_of_nodup_map nodup inside member same)

theorem erase (proper : Unsealed key pairs) :
    (sealed host key pairs).erase key = .obj (Fields.ofPairs pairs) :=
  congrArg Json.obj (Fields.erase_set (Fields.ordered_ofPairs pairs) proper.absent)

theorem keys (proper : Unsealed key pairs) (value : Json) :
    ∀ field ∈ Fields.set key value (Fields.ofPairs pairs), mergeSurrogates field.1 = field.1 := by
  intro field member
  rcases Fields.mem_set member with rfl | member
  · exact proper.1
  · exact Fields.forall_mem_ofPairs (fun pair member => (proper.2 pair member).1) field member

theorem plain (proper : Unsealed key pairs) :
    (sealed host key pairs).Plain ↔ (Json.obj (Fields.ofPairs pairs)).Plain := by
  constructor
  · intro plain
    rw [sealed] at plain
    refine Json.plain_obj (Fields.ordered_ofPairs pairs)
      (Fields.forall_mem_ofPairs fun pair member => (proper.2 pair member).1) ?_
    intro field member
    refine (plain.field.2 field ?_).2
    rw [← Fields.erase_set (Fields.ordered_ofPairs pairs) proper.absent] at member
    exact List.mem_of_mem_filter member
  · intro plain
    exact plain.set proper.1 (Host.plain_digest _)

/-- What stands under a key that is read back. -/
theorem get?_normalize (proper : Unsealed key pairs) (other : Text) :
    (sealed host key pairs).normalize.get? other =
      if key = other then some (.str (host.digest (.obj (Fields.ofPairs pairs))))
      else ((Json.obj (Fields.ofPairs pairs)).get? other).map Json.normalize := by
  rw [sealed, Json.get?_normalize (Fields.ordered_ofPairs pairs).set (proper.keys _),
    Fields.get?_set]
  split
  · rw [Option.map_some]
    exact congrArg some (Host.plain_digest _)
  · rfl

/-- The fields that are read back under the digest. -/
theorem erase_normalize (proper : Unsealed key pairs) :
    (sealed host key pairs).normalize.erase key = (Json.obj (Fields.ofPairs pairs)).normalize := by
  have keys : ∀ field ∈ Fields.ofPairs pairs, mergeSurrogates field.1 = field.1 :=
    Fields.forall_mem_ofPairs fun pair member => (proper.2 pair member).1
  have found := @get?_normalize host key pairs proper
  rw [sealed, Json.normalize] at found ⊢
  rw [Json.erase, Json.normalize]
  congr 1
  refine (Fields.ordered_ofPairs _).erase.ext (Fields.ordered_ofPairs _) fun other => ?_
  have right := Json.get?_normalize (Fields.ordered_ofPairs pairs) keys other
  rw [Json.normalize, Json.get?, Json.obj?, Option.bind_some] at right
  rw [Fields.get?_erase, right]
  split
  · next same => rw [← same, proper.absent, Option.map_none]
  · next differs =>
      have left := found other
      rw [if_neg differs] at left
      exact left

end Unsealed

end CarbonLab.Aegis
