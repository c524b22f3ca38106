import CarbonLab.Aegis.OneChild
import CarbonLab.Lib.JsonKeyed

/-!
# Handoffs that the store takes

The task with an active child is at rest, as the save that opened the child left it.  If it
still loads, the store takes the handoff that `close` records, unless an earlier handoff has
the identifier of the lease.
-/

namespace CarbonLab.Aegis

namespace Subagent

open StateStore TaskSchema

variable {host : Host} {id : Text} {disk : TaskDisk} {task workspace : Json} {records : List Json}

/-! ## The handoff of `close` -/

/-- The handoff that `close` records for an accepted child. -/
def acceptedHandoff (child : Json) (closed : Text) : Json :=
  .obj (Fields.ofPairs [("role", child.get "role"), ("lease_id", child.get "lease_id"),
    ("opened", child.get "opened"), ("closed", .str closed), ("outcome", .str "accepted"),
    ("summary", .str (strip "s")), ("evidence", .arr []),
    ("context_brief_sha256", child.get "context_brief_sha256")])

section

variable {child : Json} {closed name : Text}

theorem get_acceptedHandoff_lease (leaseIs : child.get "lease_id" = .str name)
    (plain : (Json.str name).Plain) :
    (acceptedHandoff child closed).normalize.get "lease_id" = .str name := by
  rw [acceptedHandoff, Json.get_normalize_ofPairs (child.get "lease_id") (by simp) (by simp)
    (by simp), leaseIs, plain]

theorem get?_acceptedHandoff_id :
    (acceptedHandoff child closed).normalize.get? "handoff_id" = none := by
  have missing : (acceptedHandoff child closed).get? "handoff_id" = none :=
    Fields.get?_ofPairs_eq_none (by simp)
  rw [acceptedHandoff, (Neat.ofPairs _).get?_normalize (by simp [text]), ← acceptedHandoff, missing]
  rfl

/-- A handoff without an identifier of its own has that of its lease. -/
theorem handoffKey_acceptedHandoff (leaseIs : child.get "lease_id" = .str name)
    (plain : (Json.str name).Plain) :
    handoffKey (acceptedHandoff child closed).normalize = .ok (.str name) := by
  have lease := @get_acceptedHandoff_lease child closed name leaseIs plain
  have object : (acceptedHandoff child closed).normalize.obj?.isSome = true := rfl
  rw [handoffKey, fetch_eq_ok.mpr ⟨object, lease⟩, ok_bind]
  exact fetchD_eq_ok.mpr ⟨object, by rw [Json.getD, get?_acceptedHandoff_id, Option.getD_none]⟩

theorem validateHandoff_acceptedHandoff (leaseIs : child.get "lease_id" = .str name)
    (plain : (Json.str name).Plain) (filled : strip name ≠ []) :
    validateHandoff (acceptedHandoff child closed).normalize = .ok () := by
  have lease := @get_acceptedHandoff_lease child closed name leaseIs plain
  have outcome : (acceptedHandoff child closed).normalize.get "outcome" = .str "accepted" :=
    Json.get_normalize_ofPairs (.str "accepted") (by simp) (by simp) (by simp)
  have summary : (acceptedHandoff child closed).normalize.get "summary" = .str (strip "s") :=
    Json.get_normalize_ofPairs (.str (strip "s")) (by simp) (by simp) (by simp)
  have evidence : (acceptedHandoff child closed).normalize.get "evidence" = .arr [] :=
    Json.get_normalize_ofPairs (.arr []) (by simp) (by simp) (by simp)
  have named : handoffId (acceptedHandoff child closed).normalize = .str name := by
    rw [handoffId, Json.getD, get?_acceptedHandoff_id, Option.getD_none, lease]
  have listed : (acceptedHandoff child closed).normalize.getD "evidence" (.arr []) = .arr [] := by
    rw [Json.getD, Json.get?_of_get_ne_null (by rw [evidence]; simp), evidence, Option.getD_some]
  have known : inSet (.str "accepted") ["accepted", "rejected", "partial", "recovered"] = .ok true :=
    inSet_eq_true.mpr ⟨text "accepted", by simp, rfl⟩
  simp only [validateHandoff, bind_eq_ok, require_eq_ok, exists_const, named, outcome, summary, listed,
    known]
  exact ⟨isText_iff.mpr ⟨name, rfl, filled⟩, true, rfl, rfl,
    isText_iff.mpr ⟨_, rfl, by decide⟩, rfl⟩

end

/-! ## The task that `close` stores -/

section

variable {handoffs : List Json} {handoff : Json}

/-- The task that `close` saves, as it is read back. -/
theorem handed_of_plain (plain : task.Plain) (object : task.obj?.isSome = true) :
    Handed task ((((task.set "child_history" (.arr (handoffs ++ [handoff]))).set "active_child"
      .null).set "final_audit_complete" (.bool false)).normalize)
      (handoffs.map Json.normalize ++ [handoff.normalize]) := by
  have listed : (task.set "child_history" (.arr (handoffs ++ [handoff]))).obj?.isSome = true :=
    Json.isSome_set.trans object
  have cleared : ((task.set "child_history" (.arr (handoffs ++ [handoff]))).set "active_child"
      .null).obj?.isSome = true := Json.isSome_set.trans listed
  have keyed : ((((task.set "child_history" (.arr (handoffs ++ [handoff]))).set "active_child"
      .null).set "final_audit_complete" (.bool false))).Keyed :=
    (((Json.keyed_of_plain plain).set (mergeSurrogates_text _)).set (mergeSurrogates_text _)).set
      (mergeSurrogates_text _)
  refine ⟨?_, fun key spared => ?_, ?_, ?_, Or.inr ?_⟩
  · exact isSome_normalize.trans (Json.isSome_set.trans cleared)
  · simp only [handedFields, List.mem_cons, List.not_mem_nil, or_false, not_or] at spared
    obtain ⟨history, active, audit⟩ := spared
    rw [keyed.get?_normalize, Json.get?_set_of_ne _ (Ne.symm audit),
      Json.get?_set_of_ne _ (Ne.symm active), Json.get?_set_of_ne _ (Ne.symm history),
      ← (Json.keyed_of_plain plain).get?_normalize, plain]
  · rw [keyed.get?_normalize, Json.get?_set_of_ne _ (by simp), Json.get?_set_of_ne _ (by simp),
      Json.get?_set object, if_pos rfl, Option.map_some, Json.normalize, Json.normalizeItems_eq_map,
      List.map_append, List.map_singleton]
  · rw [keyed.get?_normalize, Json.get?_set_of_ne _ (by simp), Json.get?_set listed, if_pos rfl]
    rfl
  · rw [keyed.get?_normalize, Json.get?_set cleared, if_pos rfl]
    rfl

/-- The identifiers of the handoffs stay distinct when the new one is new. -/
theorem handoffIds_concat {name : Text}
    (ids : ∃ ids, handoffs.mapM handoffKey = .ok ids ∧ distinct ids = .ok true)
    (key : handoffKey handoff = .ok (.str name))
    (unused : ∀ entry ∈ handoffs, handoffId entry ≠ .str name) :
    ∃ ids, (handoffs ++ [handoff]).mapM handoffKey = .ok ids ∧ distinct ids = .ok true := by
  obtain ⟨ids, keys, apart⟩ := ids
  have idsAre : ids = handoffs.map handoffId := by
    refine eq_map_of_mapM (fun entry result done => ?_) keys
    obtain ⟨lease, fetched, found⟩ := bind_eq_ok.mp done
    obtain ⟨_, rfl⟩ := fetch_eq_ok.mp fetched
    exact (fetchD_eq_ok.mp found).2.symm
  obtain ⟨hashable, differ⟩ := distinct_eq_ok.mp apart
  refine ⟨ids ++ [.str name], ?_, distinct_eq_ok.mpr ⟨?_, ?_⟩⟩
  · rw [List.mapM_append, keys, ok_bind, List.mapM_cons, key]
    rfl
  · intro value member
    rcases List.mem_append.mp member with old | new
    · exact hashable value old
    · rw [List.mem_singleton.mp new]
      exact ⟨rfl, rfl⟩
  · rw [allDistinct_iff] at differ ⊢
    refine List.pairwise_append.mpr ⟨differ, List.pairwise_singleton _ _, ?_⟩
    intro value old new member same
    rw [List.mem_singleton.mp member] at same
    rw [idsAre] at old
    obtain ⟨entry, inside, rfl⟩ := List.mem_map.mp old
    rcases same with is | equal
    · exact unused entry inside is.symm
    · exact unused entry inside (Json.str_equal.mp equal)

end

/-! ## The request -/

/-- A state in which a child may be opened is not terminal. -/
theorem unfinished_of_open {state : Json} (open_ : inSet state closedStates = .ok false) :
    inSet state Stage.terminal = .ok false := by
  cases state with
  | str name =>
      rw [inSet, Except.ok.injEq, decide_eq_false_iff_not] at open_ ⊢
      refine fun terminal => open_ ?_
      revert terminal
      simp only [Stage.terminal, closedStates, List.mem_cons, List.not_mem_nil, or_false]
      rintro (rfl | rfl | rfl | rfl) <;> simp
  | arr items => cases open_
  | obj fields => cases open_
  | _ => rfl

/-- The store takes the handoff of an accepted child of a task at rest. -/
theorem perform_closeEdit {closed time : Text} (resting : Resting host id disk task records)
    (open_ : inSet (task.get "state") closedStates = .ok false)
    (loads : load host workspace id disk = .ok task) (active : task.get "active_child" ≠ .null)
    (unused : ∀ entry ∈ itemsUnder task "child_history",
      handoffId entry ≠ (task.get "active_child").get "lease_id")
    (timely : strip time ≠ []) : ∃ returned after, perform host workspace id time disk
      (.mutate (closeEdit (task.get "active_child") closed "accepted" "s" []) none true) =
        .ok (returned, after) := by
  obtain ⟨_, _, _, valid, _⟩ := load_eq_ok.mp loads
  have facts := valid_of_validateTask valid
  have plain := resting.settled.plain
  obtain ⟨revision, revisionIs, _⟩ := facts.revision
  obtain ⟨_, _, _, lists, child, _⟩ := validateTask_eq_ok.mp valid
  obtain ⟨_, _, _, handoffs, _, _, listed⟩ := validateLists_eq_ok.mp lists
  have formed := validateActiveChild_iff.mp child active
  have texts := formed.texts
  simp only [List.all_cons, List.all_nil, Bool.and_true, Bool.and_eq_true] at texts
  obtain ⟨role, opened, lease⟩ := texts
  obtain ⟨name, leaseIs, filled⟩ := isText_iff.mp lease
  have found {key : Text} (isText_ : isText ((task.get "active_child").get key) = true) :
      item (task.get "active_child") key = .ok ((task.get "active_child").get key) := by
    obtain ⟨string, is, _⟩ := isText_iff.mp isText_
    exact item_eq_ok.mpr (Json.get?_of_get_ne_null (by rw [is]; simp))
  have childPlain : (task.get "active_child").Plain :=
    Json.Plain.get? plain (Json.get?_of_get_ne_null active)
  have namePlain : (Json.str name).Plain := by
    rw [← leaseIs]
    exact Json.Plain.get? childPlain (Json.get?_of_get_ne_null (by rw [leaseIs]; simp))
  have handoffsPlain : handoffs.map Json.normalize = handoffs := by
    refine (List.map_congr_left fun entry member => ?_).trans (List.map_id handoffs)
    exact (Json.Plain.get? plain listed.handoffsIs).item entry member
  have handed := @handed_of_plain task handoffs (acceptedHandoff (task.get "active_child") closed)
    plain facts.object
  rw [handoffsPlain] at handed
  rw [itemsUnder_eq listed.handoffsIs, leaseIs] at unused
  obtain ⟨⟨returned, after⟩, saved⟩ := saveLocked_handed resting loads handed listed.handoffsIs
    revisionIs timely
    (handoffIds_concat listed.handoffIds (handoffKey_acceptedHandoff leaseIs namePlain) unused)
    (List.forall_mem_singleton.mpr (validateHandoff_acceptedHandoff leaseIs namePlain filled))
  have edits : closeEdit (task.get "active_child") closed "accepted" "s" [] task.normalize
      disk.files = .ok (((task.set "child_history" (.arr (handoffs ++
        [acceptedHandoff (task.get "active_child") closed]))).set "active_child" .null).set
        "final_audit_complete" (.bool false), disk.files.ledger, disk.files.anchor) := by
    rw [plain]
    simp only [closeEdit, found role, found lease, found opened, ok_bind, List.map_nil, handOff,
      Json.getD, listed.handoffsIs, Option.getD_some]
    rfl
  refine ⟨returned, after, ?_⟩
  simp only [perform, bind_eq_ok, require_eq_ok, exists_const]
  refine ⟨task, loads, false, unfinished_of_open open_, by simp, rfl, by simp, _, edits, ?_⟩
  rw [revisionIs]
  exact saved

end Subagent

end CarbonLab.Aegis
