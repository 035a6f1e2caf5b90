import PtyRuntime.Client.View
import PtyRuntime.SortedMap

/-! Wire messages, the interning style table and the projection-to-frame diff, with the
browser that applies the messages. A loop of the source that rebuilds its output after a
table reset takes the number of passes it may make; `none` is a loop still running. -/
namespace PtyRuntime.Client

/-- `[text, width, style_id]`. -/
abbrev WireCell := String × UInt8 × Nat

structure Row where
  y : Nat
  cells : List WireCell
  deriving DecidableEq, Repr

/-- Style identity without the allocated id; the default style is all defaults. -/
structure StyleKey where
  fg : Option Rgb := none
  bg : Option Rgb := none
  bold : Bool := false
  italic : Bool := false
  faint : Bool := false
  inverse : Bool := false
  invisible : Bool := false
  strikethrough : Bool := false
  overline : Bool := false
  underline : String := ""
  deriving DecidableEq, Repr

/-- A style as it is sent: its identity and the id the frames use for it. -/
structure WireStyle where
  id : Nat
  key : StyleKey
  deriving DecidableEq, Repr

structure WirePalette where
  foreground : Option Rgb
  background : Option Rgb
  cursor : Option Rgb
  indexed : List Rgb
  deriving DecidableEq, Repr

def WirePalette.of (palette : TerminalPalette) : WirePalette where
  foreground := palette.foreground
  background := palette.background
  cursor := palette.cursor
  indexed := palette.indexed.toList

/-- Resolve a color to literal sRGB, or leave it to the client's default. -/
def color (value : TerminalColor) (palette : TerminalPalette) : Option Rgb :=
  match value with
  | .default => none
  | .palette index => some (palette.indexed.get index)
  | .rgb red green blue => some ⟨red, green, blue⟩

def underline : Underline → String
  | .none => ""
  | .single => "single"
  | .double => "double"
  | .curly => "curly"
  | .dotted => "dotted"
  | .dashed => "dashed"

/-- What the wire shows of a style. -/
def StyleKey.of (style : TerminalStyle) (palette : TerminalPalette) : StyleKey where
  fg := color style.foreground palette
  bg := color style.background palette
  bold := style.bold
  italic := style.italic
  faint := style.faint
  inverse := style.inverse
  invisible := style.invisible
  strikethrough := style.strikethrough
  overline := style.overline
  underline := Client.underline style.underline

structure Cursor where
  col : Nat
  row : Nat
  visible : Bool
  deriving DecidableEq, Repr

def mouseName : MouseTracking → String
  | .none => "none"
  | .press => "press"
  | .pressRelease => "press_release"
  | .buttonMotion => "button_motion"
  | .anyMotion => "any_motion"

def mouseEncodingName : MouseEncoding → String
  | .legacy => "legacy"
  | .sgr => "sgr"

/-- The messages of a session that is neither over nor failed. -/
inductive ServerMessage where
  | ready (cols rows : Nat) (palette : WirePalette)
  | styles (styles : List WireStyle)
  | modes (alternateScreen bracketedPaste applicationCursor : Bool) (mouse mouseEncoding : String)
  | frame (seq : Nat) (cursor : Cursor) (rows : List Row) (total scrollback : Nat)
  | history (start : Nat) (rows : List Row) (total scrollback : Nat)
  deriving DecidableEq, Repr

def styleCap : Nat := 512

structure StyleTable where
  ids : List (StyleKey × Nat) := []
  pending : List WireStyle := []
  /-- Ids were discarded mid-encode; the caller must rebuild. -/
  restarted : Bool := false
  /-- After one reset in a pass, further new styles map to the default. -/
  capped : Bool := false
  deriving DecidableEq, Repr

namespace StyleTable

def beginEncode (t : StyleTable) : StyleTable := { t with restarted := false, capped := false }

def takeRestarted (t : StyleTable) : Bool × StyleTable :=
  (t.restarted, { t with restarted := false })

def takePending (t : StyleTable) : List WireStyle × StyleTable :=
  (t.pending, { t with pending := [] })

/-- Drop every interned style. -/
def clear (_ : StyleTable) : StyleTable := {}

/-- Allocate the next id; zero is reserved for the default style. -/
def allocate (t : StyleTable) (key : StyleKey) : Nat × StyleTable :=
  let id := t.ids.length + 1
  (id, { t with ids := t.ids ++ [(key, id)], pending := t.pending ++ [⟨id, key⟩] })

def intern (t : StyleTable) (style : TerminalStyle) (palette : TerminalPalette) :
    Nat × StyleTable :=
  let key := StyleKey.of style palette
  if key = {} then (0, t)
  else
    match t.ids.lookup key with
    | some id => (id, t)
    | none =>
      if styleCap ≤ t.ids.length then
        if t.capped then (0, t)
        else { ids := [], pending := [], restarted := true, capped := true : StyleTable }.allocate key
      else t.allocate key

end StyleTable

/-- The cells of `encode_row`. -/
def encodeCells (palette : TerminalPalette) :
    List TerminalCell → StyleTable → List WireCell × StyleTable
  | [], styles => ([], styles)
  | cell :: cells, styles =>
    let (id, styles) := styles.intern cell.style palette
    let (rest, styles) := encodeCells palette cells styles
    ((cell.text, cell.width, id) :: rest, styles)

/-- `slice::chunks`. -/
def chunks {α : Type} (size : Nat) : Nat → List α → List (List α)
  | 0, _ => []
  | _ + 1, [] => []
  | fuel + 1, items => items.take size :: chunks size fuel (items.drop size)

/-- The rows of one pass of `encode_history`, numbered absolutely from `y` on. The sum of
the start and the index is a `u64`, which the row's `u16` saturates. -/
def encodeChunks (palette : TerminalPalette) :
    Nat → List (List TerminalCell) → StyleTable → List Row × StyleTable
  | _, [], styles => ([], styles)
  | y, chunk :: rest, styles =>
    let (cells, styles) := encodeCells palette chunk styles
    let (rows, styles) := encodeChunks palette (y + 1) rest styles
    (⟨min (y % 2 ^ 64) 65535, cells⟩ :: rows, styles)

/-- One pass of `encode_history`. -/
def encodeHistoryPass (history : TerminalHistory) (palette : TerminalPalette)
    (styles : StyleTable) : List Row × StyleTable :=
  if 0 < history.cols then
    encodeChunks palette history.start
      (chunks history.cols history.cells.length history.cells) styles
  else ([], styles)

/-- Encode retained rows; the flag is set when the shared table had to reset. -/
def encodeHistory (history : TerminalHistory) (palette : TerminalPalette) :
    Nat → StyleTable → Bool → Option (List Row × List WireStyle × Bool × StyleTable)
  | 0, _, _ => none
  | passes + 1, styles, reset =>
    let (rows, styles) := encodeHistoryPass history palette styles.beginEncode
    match styles.takeRestarted with
    | (false, styles) => some (rows, styles.takePending.1, reset, styles.takePending.2)
    | (true, styles) => encodeHistory history palette passes styles.clear true

/-- What the client has already been shown. -/
structure Sent where
  rows : List (List TerminalCell) := []
  size : Option (Nat × Nat) := none
  palette : Option WirePalette := none
  modes : Option TerminalModes := none
  cursor : Option TerminalCursor := none
  totals : Option (Nat × Nat) := none
  seq : Nat := 0
  deriving DecidableEq

/-- `view.cells.get(start..start + cols)` for row `y`. -/
def viewRow (view : TerminalView) (y : Nat) : Option (List TerminalCell) :=
  let start := y * view.size.cols
  if start + view.size.cols ≤ view.cells.length then
    some ((view.cells.drop start).take view.size.cols)
  else none

/-- One pass of `diff` over the rows from the listed ones on: the changed rows, what is
remembered of the screen, and the table. -/
def encodeChanged (view : TerminalView) :
    List Nat → List (List TerminalCell) → StyleTable →
      List Row × List (List TerminalCell) × StyleTable
  | [], rows, styles => ([], rows, styles)
  | y :: rest, rows, styles =>
    match viewRow view y with
    | none => ([], rows, styles)
    | some row =>
      if rows[y]? = some row then encodeChanged view rest rows styles
      else
        let (cells, styles) := encodeCells view.palette row styles
        let (changed, rows, styles) := encodeChanged view rest (rows.set y row) styles
        (⟨y, cells⟩ :: changed, rows, styles)

/-- The encoding loop of `diff`; the flag is set when the table had to reset. -/
def encodeFrame (view : TerminalView) :
    Nat → List (List TerminalCell) → StyleTable → Bool →
      Option (List Row × List (List TerminalCell) × StyleTable × Bool)
  | 0, _, _, _ => none
  | passes + 1, rows, styles, reset =>
    let (changed, rows, styles) :=
      encodeChanged view (List.range view.size.rows) rows styles.beginEncode
    match styles.takeRestarted with
    | (false, styles) => some (changed, rows, styles, reset)
    | (true, styles) =>
      encodeFrame view passes (List.replicate view.size.rows []) styles.clear true

/-- Geometry or palette changed: everything sent before is forgotten. -/
def Sent.announce (sent : Sent) (view : TerminalView) (styles : StyleTable) :
    List ServerMessage × Sent × StyleTable :=
  let palette := WirePalette.of view.palette
  let size := (view.size.cols, view.size.rows)
  if sent.palette ≠ some palette ∨ sent.size ≠ some size then
    ([.ready size.1 size.2 palette],
      { sent with palette := some palette, size := some size, rows := [] }, styles.clear)
  else ([], sent, styles)

def Sent.announceModes (sent : Sent) (view : TerminalView) : List ServerMessage × Sent :=
  if sent.modes ≠ some view.modes then
    ([.modes view.modes.alternateScreen view.modes.bracketedPaste view.modes.applicationCursor
        (mouseName view.modes.mouse) (mouseEncodingName view.modes.mouseEncoding)],
      { sent with modes := some view.modes })
  else ([], sent)

/-- Rows retained of another geometry are dropped. -/
def Sent.fitRows (sent : Sent) (view : TerminalView) : Sent :=
  if sent.rows.length ≠ view.size.rows ∨
      (sent.rows.head?.any fun row => row.length ≠ view.size.cols) then
    { sent with rows := List.replicate view.size.rows [] }
  else sent

def isReady : ServerMessage → Bool
  | .ready .. => true
  | .styles _ | .modes .. | .frame .. | .history .. => false

/-- The frame, when a row, the cursor or the counts moved, or none was sent yet. -/
def Sent.finish (sent : Sent) (view : TerminalView) (changed : List Row)
    (total scrollback : Nat) : List ServerMessage × Sent :=
  let cursorMoved := sent.cursor ≠ some view.cursor
  let totalsMoved := sent.totals ≠ some (total, scrollback)
  let sent := { sent with cursor := some view.cursor, totals := some (total, scrollback) }
  if changed ≠ [] ∨ cursorMoved ∨ totalsMoved ∨ sent.seq = 0 then
    let seq := (sent.seq + 1) % 2 ^ 64
    ([.frame seq ⟨view.cursor.col, view.cursor.row, view.cursor.visible⟩ changed total scrollback],
      { sent with seq })
  else ([], sent)

/-- Messages that bring the client up to date, in the order they must be sent. -/
def Sent.diff (passes : Nat) (sent : Sent) (view : TerminalView) (styles : StyleTable)
    (total scrollback : Nat) : Option (List ServerMessage × Sent × StyleTable) :=
  let (ready, sent, styles) := sent.announce view styles
  let (modes, sent) := sent.announceModes view
  let sent := sent.fitRows view
  match encodeFrame view passes sent.rows styles false with
  | none => none
  | some (changed, rows, styles, reset) =>
    let sent := { sent with rows }
    let messages := ready ++ modes
    let again :=
      if reset ∧ ¬messages.any isReady then
        [ServerMessage.ready view.size.cols view.size.rows (WirePalette.of view.palette)]
      else []
    let (pending, styles) := styles.takePending
    let fresh := if pending = [] then [] else [ServerMessage.styles pending]
    let (frame, sent) := sent.finish view changed total scrollback
    some (messages ++ again ++ fresh ++ frame, sent, styles)

end PtyRuntime.Client
