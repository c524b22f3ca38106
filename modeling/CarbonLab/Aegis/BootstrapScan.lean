import CarbonLab.Aegis.Bootstrap

/-!
# Markers in a text that is extended

What `_marker_offsets` finds behind the end of a text depends on the fence that is open there.
-/

namespace CarbonLab.Aegis

namespace Bootstrap

variable {scan : MarkerScan} {line logical newline body string : Text}

/-! ## Newlines -/

theorem newlineOf_newline (string : Text) : Newline (newlineOf string) := by
  unfold newlineOf
  split
  · exact Newline.returnFeed
  · exact Newline.feed

/-- What stands behind the first line feed does not matter. -/
theorem newlineOf_append (feed : lineFeed ∈ string) (rest : Text) :
    newlineOf (string ++ rest) = newlineOf string := by
  have same : (string ++ rest).takeWhile (· ≠ lineFeed) = string.takeWhile (· ≠ lineFeed) := by
    rw [List.takeWhile_append, if_neg]
    intro whole
    have all := List.takeWhile_eq_self_iff.mp (List.IsPrefix.eq_of_length
      (List.takeWhile_prefix fun letter => decide (letter ≠ lineFeed)) whole)
    simpa using all lineFeed feed
  unfold newlineOf
  rw [same]
  simp [feed]

/-- The first line feed of a text that had none. -/
theorem newlineOf_append_feed (whole : lineFeed ∉ string) (rest : Text) :
    newlineOf (string ++ lineFeed :: rest) =
      if string.getLast? = some carriageReturn then [carriageReturn, lineFeed] else [lineFeed] := by
  have before : (string ++ lineFeed :: rest).takeWhile (· ≠ lineFeed) = string := by
    rw [List.takeWhile_append_of_pos]
    · simp
    · intro letter member
      simpa using fun same : letter = lineFeed => whole (same ▸ member)
  unfold newlineOf
  rw [before]
  simp

/-! ## Logical lines -/

theorem logicalLine_of_plain (plain : ∀ letter ∈ body, isBreak letter = false)
    {ending : Text} (ends : ∀ letter ∈ ending, letter = carriageReturn ∨ letter = lineFeed) :
    logicalLine (body ++ ending) = body := by
  have front : body.reverse.dropWhile
      (fun letter => letter = carriageReturn || letter = lineFeed) = body.reverse := by
    cases reversed : body.reverse with
    | nil => rfl
    | cons last before =>
        have inside := plain last (List.mem_reverse.mp (reversed ▸ List.mem_cons_self))
        rw [List.dropWhile_cons_of_neg]
        simp only [Bool.or_eq_true, decide_eq_true_eq]
        rintro (rfl | rfl)
        · exact absurd inside (by decide)
        · exact absurd inside (by decide)
  unfold logicalLine
  rw [List.reverse_append, List.dropWhile_append_of_pos, front, List.reverse_reverse]
  intro letter member
  simpa using ends letter (List.mem_reverse.mp member)

theorem Newline.letters (ends : Newline newline) :
    ∀ letter ∈ newline, letter = carriageReturn ∨ letter = lineFeed := by
  cases ends with
  | feed => simp
  | returnFeed => simp

/-- A newline behind a line does not change the logical line. -/
theorem logicalLine_append (line : Text) {ending : Text}
    (ends : ∀ letter ∈ ending, letter = carriageReturn ∨ letter = lineFeed) :
    logicalLine (line ++ ending) = logicalLine line := by
  unfold logicalLine
  rw [List.reverse_append, List.dropWhile_append_of_pos]
  intro letter member
  simpa using ends letter (List.mem_reverse.mp member)

/-! ## Scans -/

/-- The fence behind a line. -/
def nextFence (fence : Option CodePoint) (logical : Text) : Option CodePoint :=
  match if isQuoted logical then none else fenceOf logical with
  | some token =>
      if fence = none then some token else if fence = some token then none else fence
  | none => fence

theorem scanLine_fence (scan : MarkerScan) (line : Text) :
    (scanLine scan line).fence = nextFence scan.fence (logicalLine line) := by
  unfold scanLine nextFence
  dsimp only
  cases if isQuoted (logicalLine line) then none else fenceOf (logicalLine line) with
  | some token => rfl
  | none => split_ifs <;> rfl

theorem scanLine_offset (scan : MarkerScan) (line : Text) :
    (scanLine scan line).offset = scan.offset + line.length := rfl

/-- A line that is no marker adds none. -/
theorem scanLine_of_no_marker (ordinary : strip (logicalLine line) ≠ beginMarker ∧
    strip (logicalLine line) ≠ endMarker) :
    scanLine scan line =
      { scan with
        offset := scan.offset + line.length
        fence := nextFence scan.fence (logicalLine line) } := by
  unfold scanLine nextFence
  dsimp only
  cases if isQuoted (logicalLine line) then none else fenceOf (logicalLine line) with
  | some token => rfl
  | none =>
      dsimp only
      rw [if_neg ordinary.1, if_neg ordinary.2, ite_self]

/-- A marker in an open fence is none. -/
theorem scanLine_in_fence {token : CodePoint} (fenced : scan.fence = some token)
    (unfenced : fenceOf (logicalLine line) = none) :
    scanLine scan line = { scan with offset := scan.offset + line.length } := by
  have closed : ¬(scan.fence = none ∧ isQuoted (logicalLine line) = false) := by
    rintro ⟨missing, _⟩
    rw [fenced] at missing
    cases missing
  unfold scanLine
  dsimp only
  rw [unfenced, ite_self]
  dsimp only
  rw [if_neg closed]

theorem scanLine_begin (open_ : scan.fence = none) (isMarker : logicalLine line = beginMarker) :
    scanLine scan line =
      { scan with
        offset := scan.offset + line.length
        begins := scan.begins ++ [scan.offset] } := by
  have stripped : strip beginMarker = beginMarker := by decide
  have place : indexOf beginMarker beginMarker = 0 := by decide
  have quoted : isQuoted beginMarker = false := by decide
  have unfenced : fenceOf beginMarker = none := by decide
  unfold scanLine
  dsimp only
  rw [isMarker, quoted, unfenced, stripped, place, open_]
  rfl

theorem scanLine_end (open_ : scan.fence = none) (isMarker : logicalLine line = endMarker) :
    scanLine scan line =
      { scan with
        offset := scan.offset + line.length
        ends := scan.ends ++ [scan.offset] } := by
  have stripped : strip endMarker = endMarker := by decide
  have place : indexOf endMarker endMarker = 0 := by decide
  have quoted : isQuoted endMarker = false := by decide
  have unfenced : fenceOf endMarker = none := by decide
  have other : endMarker ≠ beginMarker := by decide
  unfold scanLine
  dsimp only
  rw [isMarker, quoted, unfenced, stripped, place, open_, if_neg other]
  rfl

theorem scanLines_append (scan : MarkerScan) (first second : List Line) :
    scanLines scan (first ++ second) = scanLines (scanLines scan first) second :=
  List.foldl_append

theorem scanLines_offset (scan : MarkerScan) (lines : List Line) :
    (scanLines scan lines).offset = scan.offset + (lines.flatMap Line.kept).length := by
  induction lines generalizing scan with
  | nil => rfl
  | cons line lines ih =>
      rw [scanLines, List.foldl_cons, ← scanLines, ih, scanLine_offset, List.flatMap_cons,
        List.length_append, Nat.add_assoc]

/-- The scan of a text counts its characters. -/
theorem markerScan_offset (string : Text) : (markerScan string).offset = string.length := by
  rw [markerScan, scanLines_offset, flatMap_kept, Nat.zero_add]

/-- Lines without markers only open and close fences. -/
theorem scanLines_of_no_marker {bodies : List Text} (ends : Newline newline)
    (plain : ∀ body ∈ bodies, ∀ letter ∈ body, isBreak letter = false)
    (ordinary : ∀ body ∈ bodies, strip body ≠ beginMarker ∧ strip body ≠ endMarker) :
    scanLines scan (bodies.map (⟨·, newline⟩)) =
      { scan with
        offset := scan.offset + (bodies.flatMap (· ++ newline)).length
        fence := bodies.foldl nextFence scan.fence } := by
  induction bodies generalizing scan with
  | nil => rfl
  | cons body bodies ih =>
      have logical : logicalLine (body ++ newline) = body :=
        logicalLine_of_plain (plain body List.mem_cons_self) (Newline.letters ends)
      have step : scanLine scan (body ++ newline) =
          { scan with
            offset := scan.offset + (body ++ newline).length
            fence := nextFence scan.fence body } := by
        rw [scanLine_of_no_marker (by rw [logical]; exact ordinary body List.mem_cons_self), logical]
      rw [List.map_cons, scanLines, List.foldl_cons, ← scanLines, Line.kept, step,
        ih (fun other member => plain other (List.mem_cons_of_mem _ member))
          fun other member => ordinary other (List.mem_cons_of_mem _ member)]
      simp only [List.flatMap_cons, List.length_append, List.foldl_cons, Nat.add_assoc]

/-! ## A newline behind a text -/

/-- A blank line changes nothing but the place. -/
theorem scanLine_newline (ends : Newline newline) :
    scanLine scan newline = { scan with offset := scan.offset + newline.length } := by
  have blank : logicalLine newline = [] := by
    have empty := @logicalLine_of_plain [] (by simp) newline (Newline.letters ends)
    rwa [List.nil_append] at empty
  rw [scanLine_of_no_marker (by rw [blank]; decide), blank]
  rfl

theorem scanLine_append_newline (ends : Newline newline) :
    scanLine scan (line ++ newline) =
      { scanLine scan line with offset := scan.offset + line.length + newline.length } := by
  unfold scanLine
  dsimp only
  rw [logicalLine_append line (Newline.letters ends), List.length_append, Nat.add_assoc]

/-- A newline behind a text that is not empty changes nothing but the place. -/
theorem markerScan_append_newline (ends : Newline newline) (filled : string ≠ []) :
    markerScan (string ++ newline) =
      { markerScan string with offset := string.length + newline.length } := by
  by_cases breaks : Breaks string newline
  · have blank (scan : MarkerScan) : scanLines scan [⟨[], newline⟩] = scanLine scan newline := rfl
    rw [markerScan, splitLines_append breaks, scanLines_append, ends.splitLines_eq, ← markerScan,
      blank, scanLine_newline ends, markerScan_offset]
  · obtain ⟨before, last, lines, extended, _⟩ := splitLines_extend ends filled breaks
    have whole : string.length = (scanLines ⟨0, none, [], []⟩ before).offset + last.kept.length := by
      rw [← flatMap_kept string, lines, List.flatMap_append, List.flatMap_singleton,
        List.length_append, scanLines_offset, Nat.zero_add]
    have single (scan : MarkerScan) (line : Line) :
        scanLines scan [line] = scanLine scan line.kept := rfl
    have joined : (Line.mk last.body (last.ending ++ newline)).kept = last.kept ++ newline := by
      rw [Line.kept, Line.kept, List.append_assoc]
    have old : markerScan string = scanLine (scanLines ⟨0, none, [], []⟩ before) last.kept := by
      rw [markerScan, lines, scanLines_append, single]
    rw [markerScan, extended, scanLines_append, single, joined, scanLine_append_newline ends, old,
      whole]

end Bootstrap

end CarbonLab.Aegis
