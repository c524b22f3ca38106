import CarbonLab.Aegis.BootstrapScan

/-!
# The appended block

The lines of the managed block, what `_marker_offsets` finds in them behind another text, and the
newline of the text that the block is appended to.
-/

namespace CarbonLab.Aegis

namespace Bootstrap

variable {old newline body desired string : Text} {template : Bytes} {scan : MarkerScan}

/-! ## The block -/

/-- The lines between the markers. -/
def blockLines (body : Text) : List Text :=
  if lineBodies body = [] then [[]] else lineBodies body

theorem plain_of_mem_lineBodies (member : body ∈ lineBodies string) :
    ∀ letter ∈ body, isBreak letter = false := by
  unfold lineBodies at member
  obtain ⟨line, inside, rfl⟩ := List.mem_map.mp member
  exact body_plain inside

theorem plain_of_mem_blockLines {line : Text} (member : line ∈ blockLines body) :
    ∀ letter ∈ line, isBreak letter = false := by
  unfold blockLines at member
  split at member
  · rw [List.mem_singleton.mp member]
    simp
  · exact plain_of_mem_lineBodies member

theorem intercalate_append (lines : List Text) :
    newline.intercalate lines ++ newline =
      (if lines = [] then [[]] else lines).flatMap (· ++ newline) := by
  induction lines with
  | nil => simp
  | cons first lines ih =>
      cases lines with
      | nil => simp
      | cons second lines =>
          rw [if_neg (List.cons_ne_nil _ _)] at ih ⊢
          rw [List.intercalate_cons_cons, List.flatMap_cons, ← ih]
          simp only [List.append_assoc]

theorem foldl_nextFence_blockLines (body : Text) (fence : Option CodePoint) :
    (blockLines body).foldl nextFence fence = (lineBodies body).foldl nextFence fence := by
  unfold blockLines
  split
  · next empty =>
      rw [empty]
      rfl
  · rfl

/-- What `managed_block` returns. -/
structure IsBlock (template : Bytes) (newline body desired : Text) : Prop where
  read : templateBody template = .ok body
  ordinary : ∀ line ∈ blockLines body, strip line ≠ beginMarker ∧ strip line ≠ endMarker
  block : desired =
    beginMarker ++ newline ++ newline.intercalate (lineBodies body) ++ newline ++ endMarker

theorem managedBlock_eq_ok :
    managedBlock template newline = .ok desired ↔ ∃ body, IsBlock template newline body desired := by
  unfold managedBlock
  rw [bind_eq_ok]
  constructor
  · rintro ⟨body, read, returned⟩
    split at returned
    · cases returned
    · next unmarked =>
        refine ⟨body, read, ?_, (Except.ok.inj returned).symm⟩
        intro line member
        unfold blockLines at member
        split at member
        · rw [List.mem_singleton.mp member]
          decide
        · exact not_or.mp fun marker => unmarked ⟨line, member, marker⟩
  · rintro ⟨body, read, ordinary, rfl⟩
    refine ⟨body, read, ?_⟩
    rw [if_neg]
    rintro ⟨line, member, marker⟩
    have inside : line ∈ blockLines body := by
      unfold blockLines
      rwa [if_neg (List.ne_nil_of_mem member)]
    exact marker.elim (ordinary line inside).1 (ordinary line inside).2

/-- The lines of the block and of the newline behind it. -/
theorem block_lines (isBlock : IsBlock template newline body desired) :
    desired ++ newline =
      (beginMarker :: (blockLines body ++ [endMarker])).flatMap (· ++ newline) := by
  rw [isBlock.block, List.flatMap_cons, List.flatMap_append, List.flatMap_singleton, blockLines,
    ← intercalate_append]
  simp only [List.append_assoc]

theorem plain_markers : (∀ letter ∈ beginMarker, isBreak letter = false) ∧
    ∀ letter ∈ endMarker, isBreak letter = false := by
  constructor
  · simp [beginMarker, text, isBreak]
  · simp [endMarker, text, isBreak]

theorem splitLines_block (ends : Newline newline) (isBlock : IsBlock template newline body desired) :
    splitLines (desired ++ newline) =
      ⟨beginMarker, newline⟩ :: ((blockLines body).map (⟨·, newline⟩) ++ [⟨endMarker, newline⟩]) := by
  rw [block_lines isBlock, splitLines_lines ends]
  · simp
  · intro line member
    rcases List.mem_cons.mp member with rfl | member
    · exact plain_markers.1
    · rcases List.mem_append.mp member with member | member
      · exact plain_of_mem_blockLines member
      · rw [List.mem_singleton.mp member]
        exact plain_markers.2

theorem logicalLine_marker (ends : Newline newline) :
    logicalLine (beginMarker ++ newline) = beginMarker ∧
      logicalLine (endMarker ++ newline) = endMarker := by
  constructor
  · exact logicalLine_of_plain plain_markers.1 (Newline.letters ends)
  · exact logicalLine_of_plain plain_markers.2 (Newline.letters ends)

/-- The lines between the markers, scanned. -/
theorem scan_blockLines (ends : Newline newline) (isBlock : IsBlock template newline body desired)
    (scan : MarkerScan) :
    scanLines scan ((blockLines body).map (⟨·, newline⟩)) =
      { scan with
        offset := scan.offset + ((blockLines body).flatMap (· ++ newline)).length
        fence := (lineBodies body).foldl nextFence scan.fence } := by
  rw [scanLines_of_no_marker ends (fun line => plain_of_mem_blockLines) isBlock.ordinary,
    foldl_nextFence_blockLines]

/-- Where no fence is open and the template leaves none open, the block is found. -/
theorem scan_block (ends : Newline newline) (isBlock : IsBlock template newline body desired)
    (closed : scan.fence = none) (balanced : (lineBodies body).foldl nextFence none = none) :
    scanLines scan (splitLines (desired ++ newline)) =
      { offset := scan.offset + (desired ++ newline).length
        fence := none
        begins := scan.begins ++ [scan.offset]
        ends := scan.ends ++ [scan.offset + (desired.length - endMarker.length)] } := by
  obtain ⟨isBegin, isEnd⟩ := logicalLine_marker ends
  have first : scanLine scan (beginMarker ++ newline) = _ := scanLine_begin closed isBegin
  rw [splitLines_block ends isBlock, scanLines, List.foldl_cons, ← scanLines, Line.kept, first,
    scanLines_append, scan_blockLines ends isBlock, closed, balanced]
  change scanLine _ (endMarker ++ newline) = _
  rw [scanLine_end rfl isEnd, block_lines isBlock]
  have sized : desired.length = (beginMarker ++ newline).length +
      ((blockLines body).flatMap (· ++ newline)).length + endMarker.length := by
    rw [isBlock.block, blockLines, ← intercalate_append]
    simp only [List.length_append]
    omega
  simp only [List.flatMap_cons, List.flatMap_append, List.flatMap_nil, List.length_append,
    List.length_nil] at sized ⊢
  rw [MarkerScan.mk.injEq]
  refine ⟨by omega, rfl, rfl, ?_⟩
  have place : scan.offset + (beginMarker.length + newline.length) +
      ((blockLines body).flatMap (· ++ newline)).length =
      scan.offset + (desired.length - endMarker.length) := by omega
  rw [place]

/-- In an open fence no block starts. -/
theorem begins_of_open (ends : Newline newline) (isBlock : IsBlock template newline body desired)
    {token : CodePoint} (fenced : scan.fence = some token) :
    (scanLines scan (splitLines (desired ++ newline))).begins = scan.begins := by
  obtain ⟨isBegin, isEnd⟩ := logicalLine_marker ends
  have unfenced : fenceOf beginMarker = none := by decide
  have first : scanLine scan (beginMarker ++ newline) = _ :=
    scanLine_in_fence fenced (by rw [isBegin, unfenced])
  rw [splitLines_block ends isBlock, scanLines, List.foldl_cons, ← scanLines, Line.kept, first,
    scanLines_append, scan_blockLines ends isBlock]
  change (scanLine _ (endMarker ++ newline)).begins = _
  cases is : (lineBodies body).foldl nextFence scan.fence with
  | none => rw [scanLine_end rfl isEnd]
  | some other => rw [scanLine_in_fence rfl (by rw [isEnd]; decide)]

/-- A block whose template leaves a fence open does not end. -/
theorem ends_of_unbalanced (ends : Newline newline)
    (isBlock : IsBlock template newline body desired) (closed : scan.fence = none)
    {token : CodePoint} (unbalanced : (lineBodies body).foldl nextFence none = some token) :
    (scanLines scan (splitLines (desired ++ newline))).ends = scan.ends := by
  obtain ⟨isBegin, isEnd⟩ := logicalLine_marker ends
  have first : scanLine scan (beginMarker ++ newline) = _ := scanLine_begin closed isBegin
  rw [splitLines_block ends isBlock, scanLines, List.foldl_cons, ← scanLines, Line.kept, first,
    scanLines_append, scan_blockLines ends isBlock, closed, unbalanced]
  change (scanLine _ (endMarker ++ newline)).ends = _
  rw [scanLine_in_fence rfl (by rw [isEnd]; decide)]

/-! ## The text with the block -/

/-- The characters between a text and the block that is appended to it. -/
def separatorOf (newline old : Text) : Text :=
  if old = [] then []
  else if (newline ++ newline).isSuffixOf old then []
  else if newline.isSuffixOf old then newline
  else newline ++ newline

/-- The separator leaves whole lines. -/
theorem separated (newline old : Text) :
    old ++ separatorOf newline old = [] ∨
      ∃ before, old ++ separatorOf newline old = before ++ newline := by
  unfold separatorOf
  split
  · next empty => exact Or.inl (by simp [empty])
  · split
    · next suffix =>
        obtain ⟨before, split⟩ := List.isSuffixOf_iff_suffix.mp suffix
        exact Or.inr ⟨before ++ newline, by rw [← split]; simp⟩
    · split
      · exact Or.inr ⟨old, rfl⟩
      · exact Or.inr ⟨old ++ newline, by simp⟩

/-- The separator changes nothing but the place. -/
theorem markerScan_separator (ends : Newline newline) (old : Text) :
    markerScan (old ++ separatorOf newline old) =
      { markerScan old with offset := (old ++ separatorOf newline old).length } := by
  have same : markerScan old = { markerScan old with offset := old.length } := by
    rw [← markerScan_offset old]
  have filled : newline ≠ [] := by
    rintro rfl
    cases ends
  unfold separatorOf
  split
  · rw [List.append_nil]
    exact same
  · next filled =>
      split
      · rw [List.append_nil]
        exact same
      · split
        · rw [markerScan_append_newline ends filled, List.length_append]
        · rw [← List.append_assoc, markerScan_append_newline ends (by simp [filled]),
            markerScan_append_newline ends filled]
          simp only [List.length_append]

/-- The whole new text, scanned. -/
theorem markerScan_new (ends : Newline newline) (old rest : Text) :
    markerScan (old ++ separatorOf newline old ++ rest) =
      scanLines { markerScan old with offset := (old ++ separatorOf newline old).length }
        (splitLines rest) := by
  have breaks : Breaks (old ++ separatorOf newline old) rest := by
    rcases separated newline old with empty | ⟨before, split⟩
    · rw [empty]
      exact breaks_nil rest
    · rw [split]
      exact ends.breaks before rest
  rw [markerScan, splitLines_append breaks, scanLines_append, ← markerScan,
    markerScan_separator ends]

/-- The newline of the new text. -/
theorem newlineOf_new (isBlock : IsBlock template (newlineOf old) body desired) :
    newlineOf (old ++ separatorOf (newlineOf old) old ++ (desired ++ newlineOf old)) =
        newlineOf old ↔ lineFeed ∈ old ∨ old.getLast? ≠ some carriageReturn := by
  by_cases feed : lineFeed ∈ old
  · rw [List.append_assoc]
    exact iff_of_true (newlineOf_append feed _) (Or.inl feed)
  · have plain : newlineOf old = [lineFeed] := by
      unfold newlineOf
      rw [if_neg fun both => feed both.1]
    rw [plain] at isBlock ⊢
    by_cases empty : old = []
    · have start : desired ++ [lineFeed] = beginMarker ++ lineFeed ::
          ([lineFeed].intercalate (lineBodies body) ++ [lineFeed] ++ endMarker ++ [lineFeed]) := by
        rw [isBlock.block]
        simp
      rw [empty, separatorOf, if_pos rfl, List.nil_append, List.nil_append, start,
        newlineOf_append_feed (by decide), if_neg (by decide)]
      simp
    · have suffix (part : Text) (inside : lineFeed ∈ part) : ¬part.isSuffixOf old = true := by
        intro suffix
        exact feed ((List.isSuffixOf_iff_suffix.mp suffix).subset inside)
      have separator : separatorOf [lineFeed] old = [lineFeed, lineFeed] := by
        unfold separatorOf
        rw [if_neg empty, if_neg (suffix _ (by simp)), if_neg (suffix _ (by simp))]
        rfl
      have start : old ++ [lineFeed, lineFeed] ++ (desired ++ [lineFeed]) =
          old ++ lineFeed :: ([lineFeed] ++ (desired ++ [lineFeed])) := by simp
      rw [separator, start, newlineOf_append_feed feed, or_iff_right feed]
      split
      · next return_ => simp [return_, carriageReturn, lineFeed]
      · next other => simp [other]

end Bootstrap

end CarbonLab.Aegis
