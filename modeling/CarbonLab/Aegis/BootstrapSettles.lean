import CarbonLab.Aegis.BootstrapPlan

/-!
# Plans that settle

A plan that appends the managed block settles, so that the block is found, verified and not
planned again, exactly when the old text leaves no fence open and does not end with the carriage
return of a first newline, and when the template closes its fences.
-/

namespace CarbonLab.Aegis

namespace Bootstrap

variable {old newline body desired string : Text} {template bytes : Bytes} {bom : Bool}

/-! ## Bytes of the new text -/

theorem bomUtf8_eq : bomUtf8 = encodePoint 0xfeff := by decide

/-- A text that does not start with a byte order mark is encoded without one. -/
theorem decodeFile_encode (passes : ∀ point ∈ string, Passes false point)
    (plain : bom = false → string.head? ≠ some 0xfeff) :
    decodeFile ((if bom then bomUtf8 else []) ++ encode string) = .ok (string, bom) := by
  have read := decode_encode_of_passes passes
  cases bom with
  | true =>
      have marked : bomUtf8.isPrefixOf (bomUtf8 ++ encode string) = true :=
        List.isPrefixOf_iff_prefix.mpr (List.prefix_append _ _)
      rw [if_pos rfl, decodeFile]
      simp only [marked, if_true, List.drop_left, read]
  | false =>
      have unmarked : bomUtf8.isPrefixOf (encode string) = false := by
        rw [← Bool.not_eq_true]
        intro marked
        obtain ⟨rest, split⟩ := List.isPrefixOf_iff_prefix.mp marked
        rw [← split, bomUtf8_eq, decode_encodePoint (Or.inr (Or.inr (by decide)))] at read
        obtain ⟨later, _, same⟩ := Option.map_eq_some_iff.mp read
        exact plain rfl (by rw [← same]; rfl)
      rw [decodeFile]
      simp [unmarked, read]

/-- A file that was read without a byte order mark does not start with one. -/
theorem decodeFile_eq_ok (read : decodeFile bytes = .ok (string, bom)) :
    bytes = (if bom then bomUtf8 else []) ++ encode string ∧
      (∀ point ∈ string, Passes false point) ∧ (bom = false → string.head? ≠ some 0xfeff) := by
  unfold decodeFile at read
  dsimp only at read
  split at read
  · next found =>
      cases read
      obtain ⟨same, passes⟩ := encode_of_decode found
      cases marked : bomUtf8.isPrefixOf bytes with
      | true =>
          obtain ⟨rest, rfl⟩ := List.isPrefixOf_iff_prefix.mp marked
          rw [marked, if_pos rfl, List.drop_left] at same
          exact ⟨by rw [if_pos rfl, same], passes, fun missing => by cases missing⟩
      | false =>
          rw [marked, if_neg (by simp)] at same
          refine ⟨by rw [same]; rfl, passes, ?_⟩
          intro _ head
          obtain ⟨later, rfl⟩ := List.head?_eq_some_iff.mp head
          rw [← same] at marked
          have prefixed : bomUtf8 <+: encode (0xfeff :: later) := by
            rw [bomUtf8_eq]
            exact List.prefix_append _ _
          rw [List.isPrefixOf_iff_prefix.mpr prefixed] at marked
          cases marked
  · cases read

theorem mem_universalNewlines {letter : CodePoint} (member : letter ∈ universalNewlines string) :
    letter = lineFeed ∨ letter ∈ string := by
  induction string with
  | nil => cases member
  | cons first rest ih =>
      have later : letter ∈ universalNewlines rest → letter = lineFeed ∨ letter ∈ first :: rest :=
        fun inside => (ih inside).imp_right (List.mem_cons_of_mem _)
      rw [universalNewlines] at member
      split at member
      · split at member
        · exact later member
        · exact (List.mem_cons.mp member).elim Or.inl later
      · exact (List.mem_cons.mp member).elim (fun same => Or.inr (same ▸ List.mem_cons_self)) later

/-- The block holds no surrogates. -/
theorem passes_block (ends : Newline newline) (isBlock : IsBlock template newline body desired) :
    ∀ point ∈ desired ++ newline, Passes false point := by
  have ascii : (∀ point ∈ beginMarker, Passes false point) ∧
      ∀ point ∈ endMarker, Passes false point := by
    constructor
    · simp [beginMarker, text, Passes]
    · simp [endMarker, text, Passes]
  have line : ∀ point ∈ newline, Passes false point := by
    cases ends with
    | feed => simp [lineFeed, Passes]
    | returnFeed => simp [lineFeed, carriageReturn, Passes]
  have read := isBlock.read
  unfold templateBody at read
  split at read
  · next found =>
      cases read
      have all := (encode_of_decode found).2
      have feed : Passes false lineFeed := Or.inr (Or.inl (by decide))
      rw [block_lines isBlock]
      intro point member
      obtain ⟨part, listed, inside⟩ := List.mem_flatMap.mp member
      rcases List.mem_append.mp inside with inside | inside
      · rcases List.mem_cons.mp listed with rfl | listed
        · exact ascii.1 point inside
        · rcases List.mem_append.mp listed with listed | listed
          · unfold blockLines at listed
            split at listed
            · rw [List.mem_singleton.mp listed] at inside
              cases inside
            · unfold lineBodies at listed
              obtain ⟨whole, there, rfl⟩ := List.mem_map.mp listed
              have kept : point ∈ (splitLines (strip (universalNewlines _))).flatMap Line.kept :=
                List.mem_flatMap.mpr ⟨whole, there, List.mem_append_left _ inside⟩
              rw [flatMap_kept] at kept
              rcases mem_universalNewlines (mem_of_mem_strip kept) with rfl | member
              · exact feed
              · exact all point member
          · rw [List.mem_singleton.mp listed] at inside
            exact ascii.2 point inside
      · exact line point inside
  · cases read

/-! ## The two plans -/

/-- The new text of a plan that appends the block. -/
def appended (old desired : Text) : Text :=
  old ++ separatorOf (newlineOf old) old ++ (desired ++ newlineOf old)

/-- What a plan for a text without markers says. -/
structure Appends (host : Host) (target : Option Bytes) (template : Bytes) (body desired : Text)
    (plan : InstallPlan) : Prop where
  read : decodeFile (target.getD []) = .ok (plan.old, plan.utf8Bom)
  isBlock : IsBlock template (newlineOf plan.old) body desired
  newline : plan.newline = newlineOf plan.old
  new : plan.new = appended plan.old desired
  newBytes : plan.newBytes = (if plan.utf8Bom then bomUtf8 else []) ++ encode plan.new

variable {host : Host} {target : Option Bytes} {journal : Except BootstrapFault (Option Json)}
  {replaceManagedBlock : Bool} {plan : InstallPlan}

/-- A text without markers has no block. -/
theorem splitExisting_of_unmarked (unmarked : markerOffsets string = ([], [])) :
    splitExisting string = .ok (string, none, []) := by
  unfold splitExisting
  rw [unmarked]

theorem appends_of_plan
    (planned : host.planInstall target template journal replaceManagedBlock = .ok plan)
    (unmarked : markerOffsets plan.old = ([], [])) :
    ∃ body desired, Appends host target template body desired plan := by
  unfold Host.planInstall at planned
  obtain ⟨⟨old, bom⟩, read, planned⟩ := bind_eq_ok.mp planned
  obtain ⟨existing, split, planned⟩ := bind_eq_ok.mp planned
  obtain ⟨desired, isBlock, planned⟩ := bind_eq_ok.mp planned
  obtain ⟨loaded, _, planned⟩ := bind_eq_ok.mp planned
  obtain ⟨⟨new, action⟩, chosen, planned⟩ := bind_eq_ok.mp planned
  obtain ⟨body, isBlock⟩ := managedBlock_eq_ok.mp isBlock
  cases Except.ok.inj planned
  rw [splitExisting_of_unmarked unmarked, Except.ok.injEq] at split
  rw [← split, Host.planText] at chosen
  cases chosen
  refine ⟨body, desired, read, isBlock, rfl, ?_, rfl⟩
  simp only [appended, separatorOf, List.append_assoc]

/-- A plan whose block is the wanted one leaves the text as it is. -/
theorem planInstall_of_block {before after : Text} {loaded : Option Json}
    (read : decodeFile bytes = .ok (string, bom))
    (split : splitExisting string = .ok (before, some desired, after))
    (whole : before ++ desired ++ after = string)
    (isBlock : managedBlock template (newlineOf string) = .ok desired) :
    ∃ again, host.planInstall (some bytes) template (.ok loaded) replaceManagedBlock = .ok again ∧
      again.action = .noop ∧ again.new = string := by
  have unchanged : host.planText true string (newlineOf string) desired loaded
      replaceManagedBlock (before, some desired, after) = .ok (string, .noop) := by
    rw [Host.planText]
    simp [whole]
  unfold Host.planInstall
  simp only [Option.getD_some, Option.isSome_some, read, split, isBlock, unchanged, ok_bind]
  exact ⟨_, rfl, rfl, rfl⟩

/-! ## Texts that take the block -/

/-- A text and a template that give a block which is found again. -/
structure Receptive (old : Text) (template : Bytes) : Prop where
  /-- The first newline stays the first one. -/
  newline : lineFeed ∈ old ∨ old.getLast? ≠ some carriageReturn
  /-- The text leaves no fence open. -/
  closed : (markerScan old).fence = none
  /-- The template leaves no fence open. -/
  balanced : ∀ body, templateBody template = .ok body →
    (lineBodies body).foldl nextFence none = none

variable (host) in
/-- The plan of an appended block settles: nothing is lost, the block is found and verified, and
the next plan changes nothing. -/
structure Settles (template : Bytes) (plan : InstallPlan) : Prop where
  kept : plan.old <+: plan.new
  block : ∃ desired before after, managedBlock template plan.newline = .ok desired ∧
    splitExisting plan.new = .ok (before, some desired, after)
  verified : ∃ message, verifyInstalled (some plan.newBytes) template = .ok (true, message)
  again : ∀ loaded replace, ∃ next,
    host.planInstall (some plan.newBytes) template (.ok loaded) replace = .ok next ∧
      next.action = .noop

theorem appended_eq (old desired : Text) : appended old desired =
    old ++ separatorOf (newlineOf old) old ++ (desired ++ newlineOf old) := rfl

/-- The scan of the new text. -/
theorem markerScan_appended (unmarked : markerOffsets old = ([], [])) (desired : Text) :
    markerScan (appended old desired) =
      scanLines ⟨(old ++ separatorOf (newlineOf old) old).length, (markerScan old).fence, [], []⟩
        (splitLines (desired ++ newlineOf old)) := by
  obtain ⟨missing, missing'⟩ := Prod.mk.inj unmarked
  rw [appended_eq, markerScan_new (newlineOf_newline old)]
  dsimp only
  rw [missing, missing']

/-- The block is found where the scan finds it. -/
theorem splitExisting_appended (unmarked : markerOffsets old = ([], []))
    (isBlock : IsBlock template (newlineOf old) body desired)
    (closed : (markerScan old).fence = none)
    (balanced : (lineBodies body).foldl nextFence none = none) :
    splitExisting (appended old desired) =
      .ok (old ++ separatorOf (newlineOf old) old, some desired, newlineOf old) := by
  have sized : beginMarker.length + endMarker.length ≤ desired.length := by
    rw [isBlock.block]
    simp only [List.length_append]
    omega
  have filled : 0 < beginMarker.length := by decide
  have offsets : markerOffsets (appended old desired) =
      ([(old ++ separatorOf (newlineOf old) old).length],
        [(old ++ separatorOf (newlineOf old) old).length +
          (desired.length - endMarker.length)]) := by
    rw [markerOffsets, markerScan_appended unmarked, closed,
      scan_block (newlineOf_newline old) isBlock rfl balanced]
    rfl
  unfold splitExisting
  rw [offsets, appended_eq]
  generalize old ++ separatorOf (newlineOf old) old = glue
  have finish : glue.length + (desired.length - endMarker.length) + endMarker.length =
      glue.length + desired.length := by omega
  have whole : (glue ++ (desired ++ newlineOf old)).take (glue.length + desired.length) =
      glue ++ desired := by
    rw [← List.append_assoc, ← List.length_append, List.take_left]
  have behind : (glue ++ (desired ++ newlineOf old)).drop (glue.length + desired.length) =
      newlineOf old := by
    rw [← List.append_assoc, ← List.length_append, List.drop_left]
  dsimp only
  rw [if_neg (by omega), finish, whole, behind, List.take_left, List.drop_left]

/-- A block that is found had a start and an end. -/
theorem offsets_of_split {before block after : Text}
    (split : splitExisting string = .ok (before, some block, after)) :
    (markerScan string).begins ≠ [] ∧ (markerScan string).ends ≠ [] := by
  unfold splitExisting markerOffsets at split
  constructor
  · intro missing
    rw [missing] at split
    cases is : (markerScan string).ends <;> rw [is] at split <;> cases split
  · intro absent
    rw [absent] at split
    rcases is : (markerScan string).begins with _ | ⟨start, _ | ⟨second, later⟩⟩ <;>
      rw [is] at split <;> cases split

/-- A block is verified when it is the managed one. -/
theorem verifyInstalled_iff {before block after : Text}
    (read : decodeFile bytes = .ok (string, bom))
    (split : splitExisting string = .ok (before, some block, after)) :
    (∃ message, verifyInstalled (some bytes) template = .ok (true, message)) ↔
      managedBlock template (newlineOf string) = .ok block := by
  have serves : verifyInstalled (some bytes) template =
      (managedBlock template (newlineOf string) >>= fun desired =>
        if block ≠ desired then .ok (false, text "managed Aegis bootstrap block drifted")
        else .ok (true, text "managed Aegis bootstrap block matches framework")) := by
    unfold verifyInstalled
    simp only [read, split, ok_bind]
    rfl
  rw [serves]
  constructor
  · rintro ⟨message, verified⟩
    obtain ⟨desired, isDesired, verified⟩ := bind_eq_ok.mp verified
    split at verified
    · cases verified
    · next same => rw [isDesired, not_not.mp same]
  · intro managed
    rw [managed, ok_bind, if_neg (by simp)]
    exact ⟨_, rfl⟩

/-- Blocks with different newlines are different. -/
theorem newline_of_block {other : Text} (ends : Newline newline) (ends' : Newline other)
    (first : managedBlock template newline = .ok desired)
    (second : managedBlock template other = .ok desired) : newline = other := by
  obtain ⟨body, isBlock⟩ := managedBlock_eq_ok.mp first
  obtain ⟨body', isBlock'⟩ := managedBlock_eq_ok.mp second
  have same := isBlock.block.symm.trans isBlock'.block
  simp only [List.append_assoc, List.append_cancel_left_eq] at same
  cases ends with
  | feed =>
      cases ends' with
      | feed => rfl
      | returnFeed => exact absurd (List.cons.inj same).1 (by decide)
  | returnFeed =>
      cases ends' with
      | feed => exact absurd (List.cons.inj same).1 (by decide)
      | returnFeed => rfl

/-- The bytes of the new text are read as it. -/
theorem Appends.readNew (appends : Appends host target template body desired plan) :
    decodeFile plan.newBytes = .ok (plan.new, plan.utf8Bom) := by
  obtain ⟨_, passes, plain⟩ := decodeFile_eq_ok appends.read
  have blockPasses := passes_block (newlineOf_newline plan.old) appends.isBlock
  rw [appends.newBytes]
  apply decodeFile_encode
  · rw [appends.new, appended_eq]
    intro point member
    rcases List.mem_append.mp member with member | member
    · rcases List.mem_append.mp member with member | member
      · exact passes point member
      · refine blockPasses point (List.mem_append_right _ ?_)
        unfold separatorOf at member
        split_ifs at member
        · cases member
        · cases member
        · exact member
        · exact (List.mem_append.mp member).elim id id
    · exact blockPasses point member
  · intro unmarked
    have head := plain unmarked
    rw [appends.new, appended_eq]
    cases is : plan.old with
    | nil =>
        rw [separatorOf, if_pos rfl, appends.isBlock.block]
        exact fun same => absurd (Option.some.inj same) (by decide)
    | cons first rest =>
        rw [is] at head
        exact head

/-- A plan that appends the block settles exactly when the text and the template take it. -/
theorem settles_iff
    (planned : host.planInstall target template journal replaceManagedBlock = .ok plan)
    (unmarked : markerOffsets plan.old = ([], [])) :
    Settles host template plan ↔ Receptive plan.old template := by
  obtain ⟨body, desired, appends⟩ := appends_of_plan planned unmarked
  have isBlock := appends.isBlock
  have wanted : managedBlock template (newlineOf plan.old) = .ok desired :=
    managedBlock_eq_ok.mpr ⟨body, isBlock⟩
  have bodyIs : ∀ other, templateBody template = .ok other → other = body := by
    intro other read
    rw [isBlock.read] at read
    exact (Except.ok.inj read).symm
  have readNew := appends.readNew
  have first : newlineOf plan.new = newlineOf plan.old ↔
      lineFeed ∈ plan.old ∨ plan.old.getLast? ≠ some carriageReturn := by
    rw [appends.new, appended_eq]
    exact newlineOf_new isBlock
  constructor
  · intro settles
    obtain ⟨found, before, after, isFound, split⟩ := settles.block
    rw [appends.newline, wanted, Except.ok.injEq] at isFound
    obtain ⟨someBegin, someEnd⟩ := offsets_of_split split
    rw [appends.new, markerScan_appended unmarked] at someBegin someEnd
    have closed : (markerScan plan.old).fence = none := by
      cases is : (markerScan plan.old).fence with
      | none => rfl
      | some token =>
          rw [is, begins_of_open (newlineOf_newline plan.old) isBlock rfl] at someBegin
          exact absurd rfl someBegin
    refine ⟨first.mp ?_, closed, ?_⟩
    · have checked := (verifyInstalled_iff readNew split).mp settles.verified
      rw [← isFound] at checked
      exact newline_of_block (newlineOf_newline _) (newlineOf_newline _) checked wanted
    · intro other read
      rw [bodyIs other read]
      cases is : (lineBodies body).foldl nextFence none with
      | none => rfl
      | some token =>
          rw [closed, ends_of_unbalanced (newlineOf_newline plan.old) isBlock rfl is] at someEnd
          exact absurd rfl someEnd
  · rintro ⟨newline, closed, balanced⟩
    have same := first.mpr newline
    have split : splitExisting plan.new =
        .ok (plan.old ++ separatorOf (newlineOf plan.old) plan.old, some desired,
          newlineOf plan.old) := by
      rw [appends.new]
      exact splitExisting_appended unmarked isBlock closed (balanced body isBlock.read)
    refine ⟨?_, ⟨desired, _, _, appends.newline ▸ wanted, split⟩, ?_, ?_⟩
    · rw [appends.new, appended_eq, List.append_assoc]
      exact List.prefix_append _ _
    · rw [verifyInstalled_iff readNew split, same]
      exact wanted
    · intro loaded replace
      have whole : plan.old ++ separatorOf (newlineOf plan.old) plan.old ++ desired ++
          newlineOf plan.old = plan.new := by
        rw [appends.new, appended_eq]
        simp only [List.append_assoc]
      obtain ⟨next, done, noop, _⟩ :=
        @planInstall_of_block desired plan.new template plan.newBytes plan.utf8Bom host replace _ _
          loaded readNew split whole (same ▸ wanted)
      exact ⟨next, done, noop⟩

/-- The first line of the template. -/
def smallTemplate : Bytes := encode (text "# Aegis Agent Bootstrap" ++ [lineFeed])

/-- A text with a title. -/
def titledText : Bytes := encode (text "# Notes" ++ [lineFeed])

/-- A text that opens a code block. -/
def fencedText : Bytes := encode (text "```sh" ++ [lineFeed])

theorem settles_titledText :
    ∃ plan, (tableHost []).planInstall (some titledText) smallTemplate (.ok none) false = .ok plan ∧
      markerOffsets plan.old = ([], []) ∧
      (Settles (tableHost []) smallTemplate plan ↔ Receptive plan.old smallTemplate) := by
  have evaluated : (((tableHost []).planInstall (some titledText) smallTemplate (.ok none)
      false).toOption.map fun plan => markerOffsets plan.old) = some ([], []) := by decide +kernel
  cases is : (tableHost []).planInstall (some titledText) smallTemplate (.ok none) false with
  | error fault =>
      rw [is] at evaluated
      cases evaluated
  | ok plan =>
      rw [is] at evaluated
      have unmarked : markerOffsets plan.old = ([], []) := Option.some.inj evaluated
      exact ⟨plan, rfl, unmarked, settles_iff is unmarked⟩

/-- Behind an open code block the block that was appended is not found. -/
theorem fencedText_unsettled :
    ∃ plan, (tableHost []).planInstall (some fencedText) smallTemplate (.ok none) false = .ok plan ∧
      markerOffsets plan.old = ([], []) ∧
      verifyInstalled (some plan.newBytes) smallTemplate =
        .ok (false, text "managed Aegis bootstrap block missing") ∧
      ¬Settles (tableHost []) smallTemplate plan := by
  have evaluated : (((tableHost []).planInstall (some fencedText) smallTemplate (.ok none)
      false).toOption.map fun plan =>
        (markerOffsets plan.old, verifyInstalled (some plan.newBytes) smallTemplate)) =
      some (([], []), .ok (false, text "managed Aegis bootstrap block missing")) := by decide +kernel
  cases is : (tableHost []).planInstall (some fencedText) smallTemplate (.ok none) false with
  | error fault =>
      rw [is] at evaluated
      cases evaluated
  | ok plan =>
      rw [is] at evaluated
      obtain ⟨unmarked, missing⟩ := Prod.mk.inj (Option.some.inj evaluated)
      refine ⟨plan, rfl, unmarked, missing, ?_⟩
      intro settles
      obtain ⟨message, verified⟩ := settles.verified
      rw [missing] at verified
      cases verified

end Bootstrap

end CarbonLab.Aegis
