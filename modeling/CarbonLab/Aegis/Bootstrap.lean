import CarbonLab.Lib.Lines
import CarbonLab.Lib.Utf8
import CarbonLab.Aegis.Host

/-!
# The managed block of AGENTS.md

`_decode`, `_newline`, `managed_block`, `_marker_offsets`, `_split_existing`, `plan_install` and
`verify_installed` of `bootstrap.py`.  `AGENTS.md` is missing or a regular file here, since
`confined_path` and `verify_installed` refuse a link, and what `_load_journal` returns or raises
is an argument.
-/

namespace CarbonLab.Aegis

/-- What the bootstrap raises. -/
inductive BootstrapFault
  | bootstrapError (message : Text)
  /-- The template of the block is not UTF-8. -/
  | unicodeDecodeError
  /-- Another exception of `_load_journal`. -/
  | journalFault
  deriving DecidableEq, Repr

namespace Bootstrap

/-- `BEGIN` -/
def beginMarker : Text := text "<!-- AEGIS:BEGIN -->"

/-- `END` -/
def endMarker : Text := text "<!-- AEGIS:END -->"

/-- `codecs.BOM_UTF8` -/
def bomUtf8 : Bytes := [0xef, 0xbb, 0xbf]

/-- `_decode` -/
def decodeFile (data : Bytes) : Except BootstrapFault (Text × Bool) :=
  let bom := bomUtf8.isPrefixOf data
  let payload := if bom then data.drop bomUtf8.length else data
  match decode false payload with
  | some string => .ok (string, bom)
  | none => .error (.bootstrapError (text "root AGENTS.md is not valid UTF-8"))

/-- `_newline` -/
def newlineOf (string : Text) : Text :=
  if lineFeed ∈ string ∧
      (string.takeWhile (· ≠ lineFeed)).getLast? = some carriageReturn then
    [carriageReturn, lineFeed]
  else [lineFeed]

/-! ## The block -/

/-- The newlines that `read_text` translates. -/
def universalNewlines : Text → Text
  | [] => []
  | letter :: rest =>
      if letter = carriageReturn then
        if rest.head? = some lineFeed then universalNewlines rest
        else lineFeed :: universalNewlines rest
      else letter :: universalNewlines rest

/-- `_template_path(root).read_text(encoding="utf-8").strip()` -/
def templateBody (template : Bytes) : Except BootstrapFault Text :=
  match decode false template with
  | some string => .ok (strip (universalNewlines string))
  | none => .error .unicodeDecodeError

/-- `managed_block` -/
def managedBlock (template : Bytes) (newline : Text) : Except BootstrapFault Text := do
  let body ← templateBody template
  if ∃ line ∈ lineBodies body, strip line = beginMarker ∨ strip line = endMarker then
    .error (.bootstrapError (text "managed bootstrap template must not contain marker lines"))
  else
    .ok (beginMarker ++ newline ++ newline.intercalate (lineBodies body) ++ newline ++ endMarker)

/-! ## Markers -/

/-- `line.rstrip("\r\n")` -/
def logicalLine (line : Text) : Text :=
  (line.reverse.dropWhile fun letter => letter = carriageReturn || letter = lineFeed).reverse

/-- `logical.lstrip().startswith(">")` -/
def isQuoted (logical : Text) : Bool := startsWith (text ">") (logical.dropWhile isSpace)

/-- `_FENCE.match(logical).group(1)[0]` -/
def fenceOf (logical : Text) : Option CodePoint :=
  let stripped := logical.dropWhile isSpace
  if startsWith (text "```") stripped then some (code '\x60')
  else if startsWith (text "~~~") stripped then some (code '~')
  else none

/-- `string.index(part)` of a part that is there. -/
def indexOf (part string : Text) : ℕ := string.tails.findIdx part.isPrefixOf

/-- The variables of the loop of `_marker_offsets`. -/
structure MarkerScan where
  offset : ℕ
  fence : Option CodePoint
  begins : List ℕ
  ends : List ℕ
  deriving DecidableEq, Repr

/-- One line of `_marker_offsets`. -/
def scanLine (scan : MarkerScan) (line : Text) : MarkerScan :=
  let logical := logicalLine line
  let quoted := isQuoted logical
  let scanned :=
    match if quoted then none else fenceOf logical with
    | some token =>
        { scan with fence :=
            if scan.fence = none then some token
            else if scan.fence = some token then none
            else scan.fence }
    | none =>
        if scan.fence = none ∧ quoted = false then
          let marker := strip logical
          if marker = beginMarker then
            { scan with begins := scan.begins ++ [scan.offset + indexOf beginMarker logical] }
          else if marker = endMarker then
            { scan with ends := scan.ends ++ [scan.offset + indexOf endMarker logical] }
          else scan
        else scan
  { scanned with offset := scan.offset + line.length }

/-- The loop of `_marker_offsets` over some lines. -/
def scanLines (scan : MarkerScan) (lines : List Line) : MarkerScan :=
  lines.foldl (fun scan line => scanLine scan line.kept) scan

/-- The variables of `_marker_offsets` behind its loop. -/
def markerScan (string : Text) : MarkerScan := scanLines ⟨0, none, [], []⟩ (splitLines string)

/-- `_marker_offsets` -/
def markerOffsets (string : Text) : List ℕ × List ℕ :=
  ((markerScan string).begins, (markerScan string).ends)

/-- `_split_existing` -/
def splitExisting (string : Text) : Except BootstrapFault (Text × Option Text × Text) :=
  match markerOffsets string with
  | ([], []) => .ok (string, none, [])
  | ([start], [last]) =>
      if last ≤ start then
        .error (.bootstrapError (text "malformed or duplicate Aegis markers in root AGENTS.md"))
      else
        let finish := last + endMarker.length
        .ok (string.take start, some ((string.take finish).drop start), string.drop finish)
  | _ => .error (.bootstrapError (text "malformed or duplicate Aegis markers in root AGENTS.md"))

end Bootstrap

/-! ## Plans -/

/-- `action` of a plan. -/
inductive InstallAction
  | create
  | append
  | update
  | noop
  deriving DecidableEq, Repr

/-- What `plan_install` returns. -/
structure InstallPlan where
  targetExisted : Bool
  action : InstallAction
  changed : Bool
  beforeSha256 : Text
  afterSha256 : Text
  installedBlockSha256 : Text
  newline : Text
  utf8Bom : Bool
  old : Text
  new : Text
  oldBytes : Bytes
  newBytes : Bytes
  journal : Option Json

namespace Host

variable (host : Host)

open Bootstrap

/-- The new text of a plan and its action: the block is put behind a text without one, and takes
the place of the one that is there. -/
def planText (existed : Bool) (old newline desired : Text) (journal : Option Json)
    (replaceManagedBlock : Bool) :
    Text × Option Text × Text → Except BootstrapFault (Text × InstallAction)
  | (_, none, _) =>
      let separator :=
        if old = [] then []
        else if (newline ++ newline).isSuffixOf old then []
        else if newline.isSuffixOf old then newline
        else newline ++ newline
      .ok (old ++ separator ++ desired ++ newline, if existed then .append else .create)
  | (before, some block, after) =>
      let previous := (journal.map (·.get "installed_block_sha256")).getD .null
      if block ≠ desired ∧ previous.equal (.str (host.sha256 (encode block))) = false ∧
          replaceManagedBlock = false then
        .error (.bootstrapError (text "existing Aegis block differs from both this framework and the recorded install; refusing to overwrite possible user edits (use --replace-managed-block only after review)"))
      else
        let new := before ++ desired ++ after
        .ok (new, if new = old then .noop else .update)

/-- `plan_install`; `target` is the content of `AGENTS.md` and `template` the content of the
template of the block. -/
def planInstall (target : Option Bytes) (template : Bytes)
    (journal : Except BootstrapFault (Option Json)) (replaceManagedBlock : Bool) :
    Except BootstrapFault InstallPlan := do
  let oldBytes := target.getD []
  let (old, bom) ← decodeFile oldBytes
  let newline := newlineOf old
  let existing ← splitExisting old
  let desired ← managedBlock template newline
  let journal ← journal
  let (new, action) ← host.planText target.isSome old newline desired journal replaceManagedBlock
    existing
  let newBytes := (if bom then bomUtf8 else []) ++ encode new
  .ok
    { targetExisted := target.isSome, action, changed := newBytes ≠ oldBytes
      beforeSha256 := host.sha256 oldBytes, afterSha256 := host.sha256 newBytes
      installedBlockSha256 := host.sha256 (encode desired), newline, utf8Bom := bom, old, new
      oldBytes, newBytes, journal }

end Host

namespace Bootstrap

/-- `verify_installed` -/
def verifyInstalled (target : Option Bytes) (template : Bytes) :
    Except BootstrapFault (Bool × Text) :=
  match target with
  | none => .ok (false, text "root AGENTS.md missing or symlinked")
  | some data =>
      match decodeFile data >>= fun (string, _) =>
          (fun (_, current, _) => (string, current)) <$> splitExisting string with
      | .error (.bootstrapError message) => .ok (false, message)
      | .error fault => .error fault
      | .ok (_, none) => .ok (false, text "managed Aegis bootstrap block missing")
      | .ok (string, some current) => do
          let desired ← managedBlock template (newlineOf string)
          if current ≠ desired then .ok (false, text "managed Aegis bootstrap block drifted")
          else .ok (true, text "managed Aegis bootstrap block matches framework")

end Bootstrap

end CarbonLab.Aegis
