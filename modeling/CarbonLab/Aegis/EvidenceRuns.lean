import CarbonLab.Aegis.EvidenceChain

/-!
# Runs of the ledger's functions

What `append_evidence` and `rollback_last_evidence` compute before their first write, and
the files they leave behind when they are cut short after any step.
-/

namespace CarbonLab.Aegis

namespace Evidence

variable {host : Host} {task : Text}

/-- The identifier that the caller gave. -/
def Arguments.given (arguments : Arguments) : Option Text :=
  arguments.evidenceId.filter (· ≠ [])

/-- The identifier of the new record. -/
def Arguments.id (arguments : Arguments) (host : Host) (ticks : ℕ) : Text :=
  arguments.given.getD (text "E-" ++ host.entropy.uuid ticks)

/-- The clock after the identifier was chosen. -/
def Arguments.ticks (arguments : Arguments) (ticks : ℕ) : ℕ :=
  if arguments.given.isSome then ticks else ticks + 1

/-- What `append_evidence` is about to write. -/
structure Plan where
  repaired : Option Json
  epoch : ℤ
  previous : Json
  count : ℤ
  id : Text
  time : Text
  deriving DecidableEq

section

variable (host : Host) (task : Text) (arguments : Arguments)

/-- `append_evidence` up to its first write. -/
def appendPlan (store : Store) : Except Raised Plan := do
  let epoch ← checkArguments task arguments
  checkTaskState host store.files.state
  let selected ← selectAnchor host task store.files
  return {
    repaired := selected.2.2, epoch, previous := selected.1, count := selected.2.1
    id := arguments.id host store.ticks
    time := host.entropy.now (arguments.ticks store.ticks) }

namespace Plan

variable (plan : Plan) (files : TaskFiles)

/-- The record of a plan. -/
def record : Json :=
  sealRecord host (recordBody host task arguments plan.epoch plan.id plan.time plan.previous
    plan.count)

/-- The files after the repair of the anchor. -/
def repair : TaskFiles :=
  { files with anchor := match plan.repaired with
      | some anchor => some (anchorText host anchor)
      | none => files.anchor }

/-- The files after a part of the record is written. -/
def wrote (part : Bytes) : TaskFiles :=
  { plan.repair host files with ledger := some (files.ledger.getD [] ++ part) }

/-- The files after `append_evidence` returned. -/
def done (revision : Json) : TaskFiles :=
  { files with
    ledger := some (files.ledger.getD [] ++ recordLine host (plan.record host task arguments))
    anchor := some (anchorText host
      (newAnchor host task plan.count (plan.record host task arguments) revision)) }

end Plan

/-- The revision as it is written to the anchor. -/
def Arguments.revision : Option Json :=
  host.json ((arguments.detail? "task_revision").getD .null)

end

/-! ## Appending -/

theorem meets_writeBytes {bytes old : Bytes} {store : Store} (there : store.files.ledger = some old) :
    Program.Meets (serve host) (writeBytes bytes)
      (fun cut => cut.ticks = store.ticks ∧ ∃ part, part <+: bytes ∧
        cut.files = { store.files with ledger := some (old ++ part) })
      (fun outcome final => outcome = .ok () ∧
        final = { store with files.ledger := some (old ++ bytes) }) store := by
  induction bytes generalizing store old with
  | nil =>
      have same : ({ store with files.ledger := some (old ++ []) } : Store) = store := by
        rw [List.append_nil, ← there]
      refine Program.meets_pure.mpr ⟨⟨rfl, [], List.nil_prefix, ?_⟩, rfl, same.symm⟩
      rw [List.append_nil, ← there]
  | cons byte bytes ih =>
      refine Program.meets_act.mpr ⟨⟨rfl, [], List.nil_prefix, ?_⟩, ?_⟩
      · rw [List.append_nil, ← there]
      · have next : (serve host (.appendByte byte) store).2 =
            { store with files.ledger := some (old ++ [byte]) } := by
          rw [serve, there]
          rfl
        rw [next]
        refine (ih rfl).mono ?_ ?_
        · rintro cut ⟨ticks, part, inside, files⟩
          refine ⟨ticks, byte :: part, List.cons_prefix_cons.mpr ⟨rfl, inside⟩, ?_⟩
          rw [files, List.append_assoc]
          rfl
        · rintro outcome final _ ⟨ok, is⟩
          refine ⟨ok, ?_⟩
          rw [is, List.append_assoc]
          rfl

section

variable {α β : Type} {during : Store → Prop} {after : Except Raised β → Store → Prop}
  {store : Store}

theorem meets_ofExcept_bind {value : Except Raised α} {next : α → LedgerProgram β} :
    Program.Meets (serve host) (LedgerProgram.ofExcept value >>= next) during after store ↔
      match value with
      | .ok value => Program.Meets (serve host) (next value) during after store
      | .error error => during store ∧ after (.error error) store := by
  cases value with
  | ok value => exact Iff.rfl
  | error error => exact Program.meets_raise

theorem meets_look_bind {next : TaskFiles → LedgerProgram β} :
    Program.Meets (serve host) (look >>= next) during after store ↔
      during store ∧ Program.Meets (serve host) (next store.files) during after store :=
  Program.meets_act

theorem meets_now_bind {next : Text → LedgerProgram β} :
    Program.Meets (serve host) (now >>= next) during after store ↔
      during store ∧ Program.Meets (serve host) (next (host.entropy.now store.ticks)) during after
        { store with ticks := store.ticks + 1 } :=
  Program.meets_act

theorem meets_openLedger_bind {next : Unit → LedgerProgram β} :
    Program.Meets (serve host) (openLedger >>= next) during after store ↔
      during store ∧ Program.Meets (serve host) (next ()) during after
        { store with files.ledger := some (store.files.ledger.getD []) } :=
  Program.meets_act

theorem meets_replaceAnchor_bind {contents : Bytes} {next : Unit → LedgerProgram β} :
    Program.Meets (serve host) (replaceAnchor contents >>= next) during after store ↔
      during store ∧ Program.Meets (serve host) (next ()) during after
        { store with files.anchor := some contents } :=
  Program.meets_act

theorem meets_replaceLedger_bind {contents : Bytes} {next : Unit → LedgerProgram β} :
    Program.Meets (serve host) (replaceLedger contents >>= next) during after store ↔
      during store ∧ Program.Meets (serve host) (next ()) during after
        { store with files.ledger := some contents } :=
  Program.meets_act

theorem meets_repairAnchor_bind {repaired : Option Json} {next : Unit → LedgerProgram β}
    (here : during store)
    (later : Program.Meets (serve host) (next ()) during after
      { store with files.anchor := match repaired with
          | some anchor => some (anchorText host anchor)
          | none => store.files.anchor }) :
    Program.Meets (serve host) (repairAnchor host repaired >>= next) during after store := by
  cases repaired with
  | none => exact later
  | some anchor => exact meets_replaceAnchor_bind.mpr ⟨here, later⟩

theorem meets_chooseId_bind {arguments : Arguments} {next : Text → LedgerProgram β}
    (here : during store)
    (later : Program.Meets (serve host) (next (arguments.id host store.ticks)) during after
      { store with ticks := arguments.ticks store.ticks }) :
    Program.Meets (serve host) (chooseId arguments >>= next) during after store := by
  have asked (unasked : arguments.given = none) :
      Program.Meets (serve host) ((do return text "E-" ++ (← uuid)) >>= next) during after store := by
    rw [Arguments.id, Arguments.ticks, unasked] at later
    exact Program.meets_act.mpr ⟨here, later⟩
  rw [chooseId]
  cases supplied : arguments.evidenceId with
  | none => exact asked (by rw [Arguments.given, supplied]; rfl)
  | some given =>
      simp only
      split
      · next empty => exact asked (by rw [Arguments.given, supplied, empty]; rfl)
      · next proper =>
          have is : arguments.given = some given := by
            rw [Arguments.given, supplied, Option.filter_some, if_pos (by simpa using proper)]
          rw [Arguments.id, Arguments.ticks, is] at later
          exact later

end

/-- Writing the record and its anchor. -/
theorem meets_writeRecord {arguments : Arguments} {count : ℤ} {record : Json} {store : Store} :
    Program.Meets (serve host) (writeRecord host task arguments count record)
      (fun cut => cut.files = store.files ∨
        (∃ part, part <+: recordLine host record ∧
          cut.files = { store.files with ledger := some (store.files.ledger.getD [] ++ part) }) ∨
        ∃ revision, arguments.revision host = some revision ∧ cut.files = { store.files with
          ledger := some (store.files.ledger.getD [] ++ recordLine host record)
          anchor := some (anchorText host (newAnchor host task count record revision)) })
      (fun outcome final => match arguments.revision host with
        | none => outcome = .error ⟨.typeError, "'<' not supported between instances"⟩ ∧
            final.files = { store.files with
              ledger := some (store.files.ledger.getD [] ++ recordLine host record) }
        | some revision => outcome = .ok record ∧ final.files = { store.files with
            ledger := some (store.files.ledger.getD [] ++ recordLine host record)
            anchor := some (anchorText host (newAnchor host task count record revision)) })
      store := by
  rw [writeRecord]
  refine meets_openLedger_bind.mpr ⟨Or.inl rfl, ?_⟩
  refine Program.Meets.bind ((meets_writeBytes rfl).mono ?_ ?_)
  · rintro cut ⟨_, part, inside, files⟩
    exact Or.inr (Or.inl ⟨part, inside, files⟩)
  · rintro outcome final _ ⟨rfl, rfl⟩
    have whole : recordLine host record <+: recordLine host record := List.prefix_refl _
    cases revision : arguments.revision host with
    | none =>
        rw [Arguments.revision] at revision
        simp only [revision]
        exact Program.meets_raise.mpr ⟨Or.inr (Or.inl ⟨_, whole, rfl⟩), rfl, rfl⟩
    | some value =>
        have is := revision
        rw [Arguments.revision] at is
        simp only [is]
        refine meets_replaceAnchor_bind.mpr ⟨Or.inr (Or.inl ⟨_, whole, rfl⟩), ?_⟩
        exact Program.meets_pure.mpr ⟨Or.inr (Or.inr ⟨value, rfl, rfl⟩), rfl, rfl⟩

/-- What is left after the repair of the anchor. -/
theorem meets_planned {arguments : Arguments} {plan : Plan} {files : TaskFiles} {start : Store}
    (repaired : start.files = plan.repair host files)
    (id : plan.id = arguments.id host start.ticks)
    (time : plan.time = host.entropy.now (arguments.ticks start.ticks)) :
    Program.Meets (serve host) (do
        let id ← chooseId arguments
        let time ← now
        writeRecord host task arguments plan.count (sealRecord host
          (recordBody host task arguments plan.epoch id time plan.previous plan.count)))
      (fun cut => cut.files = plan.repair host files ∨
        (∃ part, part <+: recordLine host (plan.record host task arguments) ∧
          cut.files = plan.wrote host files part) ∨
        ∃ revision, arguments.revision host = some revision ∧
          cut.files = plan.done host task arguments files revision)
      (fun outcome final => match arguments.revision host with
        | none => outcome = .error ⟨.typeError, "'<' not supported between instances"⟩ ∧
            final.files = plan.wrote host files
              (recordLine host (plan.record host task arguments))
        | some revision => outcome = .ok (plan.record host task arguments) ∧
            final.files = plan.done host task arguments files revision)
      start := by
  refine meets_chooseId_bind (Or.inl repaired) (meets_now_bind.mpr ⟨Or.inl repaired, ?_⟩)
  rw [← id, ← time]
  refine meets_writeRecord.mono ?_ ?_
  · intro cut passed
    simp only [repaired] at passed
    exact passed
  · intro outcome final _ ended
    simp only [repaired] at ended
    exact ended

/-- The states that `append_evidence` passes through, and how it ends. -/
theorem meets_appendEvidence (arguments : Arguments) (store : Store) :
    Program.Meets (serve host) (appendEvidence host task arguments)
      (fun cut => cut.files = store.files ∨
        ∃ plan, appendPlan host task arguments store = .ok plan ∧
          (cut.files = plan.repair host store.files ∨
            (∃ part, part <+: recordLine host (plan.record host task arguments) ∧
              cut.files = plan.wrote host store.files part) ∨
            ∃ revision, arguments.revision host = some revision ∧
              cut.files = plan.done host task arguments store.files revision))
      (fun outcome final => match appendPlan host task arguments store with
        | .error error => outcome = .error error ∧ final.files = store.files
        | .ok plan =>
            match arguments.revision host with
            | none => outcome = .error ⟨.typeError, "'<' not supported between instances"⟩ ∧
                final.files = plan.wrote host store.files
                  (recordLine host (plan.record host task arguments))
            | some revision => outcome = .ok (plan.record host task arguments) ∧
                final.files = plan.done host task arguments store.files revision)
      store := by
  rw [appendEvidence, meets_ofExcept_bind]
  cases checked : checkArguments task arguments with
  | error error =>
      have refused : appendPlan host task arguments store = .error error := by
        rw [appendPlan, checked]
        rfl
      rw [refused]
      exact ⟨Or.inl rfl, rfl, rfl⟩
  | ok epoch =>
      refine meets_look_bind.mpr ⟨Or.inl rfl, meets_ofExcept_bind.mpr ?_⟩
      cases allowed : checkTaskState host store.files.state with
      | error error =>
          have missing : appendPlan host task arguments store = .error error := by
            rw [appendPlan, checked, allowed]
            rfl
          rw [missing]
          exact ⟨Or.inl rfl, rfl, rfl⟩
      | ok _ =>
          refine meets_ofExcept_bind.mpr ?_
          cases selection : selectAnchor host task store.files with
          | error error =>
              have absent : appendPlan host task arguments store = .error error := by
                rw [appendPlan, checked, allowed, selection]
                rfl
              rw [absent]
              exact ⟨Or.inl rfl, rfl, rfl⟩
          | ok selected =>
              let plan : Plan := {
                repaired := selected.2.2, epoch, previous := selected.1, count := selected.2.1
                id := arguments.id host store.ticks
                time := host.entropy.now (arguments.ticks store.ticks) }
              have planned : appendPlan host task arguments store = .ok plan := by
                rw [appendPlan, checked, allowed, selection]
                rfl
              rw [planned]
              have rest := @meets_planned host task arguments plan store.files
                ⟨plan.repair host store.files, store.ticks⟩ rfl rfl rfl
              refine meets_repairAnchor_bind (Or.inl rfl) ?_
              exact rest.mono (fun _ passed => Or.inr ⟨plan, rfl, passed⟩)
                (fun _ _ _ ended => ended)

/-- A plan is carried out. -/
theorem run_of_plan {arguments : Arguments} {store : Store} {plan : Plan} {revision : Json}
    (planned : appendPlan host task arguments store = .ok plan)
    (revised : arguments.revision host = some revision) :
    ∃ final, (appendEvidence host task arguments).run (serve host) store =
        (.ok (plan.record host task arguments), final) ∧
      final.files = plan.done host task arguments store.files revision := by
  have ended := (@meets_appendEvidence host task arguments store).2
  rw [planned, revised] at ended
  exact ⟨_, Prod.ext ended.1 rfl, ended.2⟩

/-- How `append_evidence` returns a record. -/
theorem run_appendEvidence {arguments : Arguments} {store final : Store} {record : Json}
    (ran : (appendEvidence host task arguments).run (serve host) store = (.ok record, final)) :
    ∃ plan revision, appendPlan host task arguments store = .ok plan ∧
      arguments.revision host = some revision ∧ record = plan.record host task arguments ∧
      final.files = plan.done host task arguments store.files revision := by
  have ended := (@meets_appendEvidence host task arguments store).2
  rw [ran] at ended
  cases planned : appendPlan host task arguments store with
  | error error =>
      rw [planned] at ended
      cases ended.1
  | ok plan =>
      rw [planned] at ended
      cases revised : arguments.revision host with
      | none =>
          rw [revised] at ended
          cases ended.1
      | some revision =>
          rw [revised] at ended
          exact ⟨plan, revision, rfl, rfl, Except.ok.inj ended.1, ended.2⟩

theorem run_chooseId (arguments : Arguments) (store : Store) :
    (chooseId arguments).run (serve host) store =
      (.ok (arguments.id host store.ticks), { store with ticks := arguments.ticks store.ticks }) := by
  rw [chooseId, Arguments.id, Arguments.ticks, Arguments.given]
  cases arguments.evidenceId with
  | none => rfl
  | some given =>
      by_cases empty : given = []
      · simp only [empty, if_true, Option.filter_some]
        rfl
      · simp only [empty, if_false, Option.filter_some, ne_eq, not_false_eq_true, decide_true,
          if_true]
        rfl

theorem visits_writeBytes {bytes part old : Bytes} {store : Store} (inside : part <+: bytes)
    (there : store.files.ledger = some old) :
    ∃ cut, (writeBytes bytes).Visits (serve host) store cut ∧
      cut.files = { store.files with ledger := some (old ++ part) } := by
  induction part generalizing bytes old store with
  | nil =>
      refine ⟨store, Program.visits_start _, ?_⟩
      rw [List.append_nil, ← there]
  | cons byte part ih =>
      obtain ⟨rest, rfl⟩ := inside
      obtain ⟨cut, visits, files⟩ := ih (List.prefix_append part rest)
        (show (serve host (.appendByte byte) store).2.files.ledger = some (old ++ [byte]) by
          rw [serve, there]
          rfl)
      refine ⟨cut, Or.inr visits, ?_⟩
      rw [files, List.append_assoc]
      rfl

theorem visits_writeRecord {arguments : Arguments} {count : ℤ} {record : Json} {part : Bytes}
    (inside : part <+: recordLine host record) (store : Store) :
    ∃ cut, (writeRecord host task arguments count record).Visits (serve host) store cut ∧
      cut.files = { store.files with ledger := some (store.files.ledger.getD [] ++ part) } := by
  obtain ⟨cut, visits, files⟩ := @visits_writeBytes host _ _ (store.files.ledger.getD [])
    (serve host .openLedger store).2 inside rfl
  have opened : openLedger.run (serve host) store = (.ok (), (serve host .openLedger store).2) := rfl
  refine ⟨cut, ?_, files⟩
  rw [writeRecord]
  exact Program.Visits.bind_right opened (Program.Visits.bind_left visits)

/-- The process can stop with any part of the record on the disk. -/
theorem visits_appendEvidence {arguments : Arguments} {store : Store} {plan : Plan} {part : Bytes}
    (planned : appendPlan host task arguments store = .ok plan)
    (inside : part <+: recordLine host (plan.record host task arguments)) :
    ∃ cut, (appendEvidence host task arguments).Visits (serve host) store cut ∧
      cut.files = plan.wrote host store.files part := by
  rw [appendPlan] at planned
  simp only [bind_eq_ok] at planned
  obtain ⟨epoch, checked, _, allowed, selected, chosen, planned⟩ := planned
  cases planned
  have repaired : (repairAnchor host selected.2.2).run (serve host) store = (.ok (),
      { store with files.anchor := match selected.2.2 with
          | some anchor => some (anchorText host anchor)
          | none => store.files.anchor }) := by
    cases selected.2.2 <;> rfl
  generalize is : (match selected.2.2 with
    | some anchor => some (anchorText host anchor)
    | none => store.files.anchor) = anchor at repaired
  obtain ⟨cut, visits, files⟩ := @visits_writeRecord host task arguments selected.2.1 _ _ inside
    ⟨{ store.files with anchor }, arguments.ticks store.ticks + 1⟩
  refine ⟨cut, ?_, ?_⟩
  · let write (id time : Text) := writeRecord host task arguments selected.2.1
      (sealRecord host (recordBody host task arguments epoch id time selected.1 selected.2.1))
    have timed : (now >>= write (arguments.id host store.ticks)).Visits (serve host)
        ⟨{ store.files with anchor }, arguments.ticks store.ticks⟩ cut := Or.inr visits
    have named : (chooseId arguments >>= fun id => now >>= write id).Visits (serve host)
        ⟨{ store.files with anchor }, store.ticks⟩ cut :=
      Program.Visits.bind_right (run_chooseId arguments _) timed
    have rest : (repairAnchor host selected.2.2 >>= fun _ => chooseId arguments >>= fun id =>
        now >>= write id).Visits (serve host) store cut := Program.Visits.bind_right repaired named
    rw [appendEvidence, checked]
    refine Or.inr ?_
    change (LedgerProgram.ofExcept (checkTaskState host store.files.state) >>= _).Visits _ _ _
    rw [allowed]
    change (LedgerProgram.ofExcept (selectAnchor host task store.files) >>= _).Visits _ _ _
    rw [chosen]
    exact rest
  · rw [files, Plan.wrote, Plan.repair, ← is]

/-! ## Rolling back -/

/-- The states that `rollback_last_evidence` passes through. -/
theorem meets_rollbackLastEvidence (digest : Text) (store : Store) :
    Program.Meets (serve host) (rollbackLastEvidence host task digest)
      (fun cut => cut.files = store.files ∨
        ∃ prior, checkRollback host task digest store.files = .ok prior ∧
          (cut.files = { store.files with
              anchor := some (anchorText host (priorAnchor host task prior)) } ∨
            cut.files = { store.files with
              ledger := some (prior.flatMap (recordLine host))
              anchor := some (anchorText host (priorAnchor host task prior)) }))
      (fun _ _ => True) store := by
  rw [rollbackLastEvidence, meets_ofExcept_bind]
  cases require (digest.length = 64)
      (valueError "rollback requires a canonical evidence record digest") with
  | error error => exact ⟨Or.inl rfl, trivial⟩
  | ok _ =>
      refine meets_look_bind.mpr ⟨Or.inl rfl, meets_ofExcept_bind.mpr ?_⟩
      cases checked : checkRollback host task digest store.files with
      | error error => exact ⟨Or.inl rfl, trivial⟩
      | ok prior =>
          refine meets_replaceAnchor_bind.mpr ⟨Or.inl rfl, meets_replaceLedger_bind.mpr
            ⟨Or.inr ⟨prior, rfl, Or.inl rfl⟩, meets_look_bind.mpr
              ⟨Or.inr ⟨prior, rfl, Or.inr rfl⟩, ?_⟩⟩⟩
          cases checkRolledBack host task prior _ with
          | error error =>
              exact Program.meets_raise.mpr ⟨Or.inr ⟨prior, rfl, Or.inr rfl⟩, trivial⟩
          | ok value =>
              exact Program.meets_pure.mpr ⟨Or.inr ⟨prior, rfl, Or.inr rfl⟩, trivial⟩

end Evidence

end CarbonLab.Aegis
