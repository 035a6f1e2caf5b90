import PtyRuntime.Client.Wire
import Mathlib.Data.Nat.Basic

/-! One session's replies to its client, and the client that applies them in order. -/
namespace PtyRuntime.Client

/-- What the browser paints from. -/
structure Browser where
  styles : SortedMap Nat WireStyle := .empty
  palette : Option WirePalette := none
  cols : Nat := 0
  rows : Nat := 0
  lines : List (List WireCell) := []

namespace Browser

def adaptLines (lines : List (List WireCell)) (cols rows : Nat) : List (List WireCell) :=
  (List.range rows).map fun y => (lines[y]?.getD []).take cols

/-- `lines[y] = cells`, which extends a shorter array with holes. -/
def setLine (lines : List (List WireCell)) (row : Row) : List (List WireCell) :=
  if row.y < lines.length then lines.set row.y row.cells
  else lines ++ List.replicate (row.y - lines.length) [] ++ [row.cells]

/-- `socket.onmessage`. -/
def receive (b : Browser) : ServerMessage → Browser
  | .ready cols rows palette =>
    { styles := .empty
      palette := some palette
      cols
      rows
      lines := if b.cols = cols ∧ b.rows = rows then b.lines else adaptLines b.lines cols rows }
  | .styles styles => { b with styles := styles.foldl (fun map s => map.insert s.id s) b.styles }
  | .frame _ _ rows _ _ => { b with lines := rows.foldl setLine b.lines }
  | .modes .. | .history .. => b

def receiveAll (b : Browser) (messages : List ServerMessage) : Browser :=
  messages.foldl receive b

/-- The style painted for an id, zero being the default one; none when it is missing. -/
def style (b : Browser) (id : Nat) : Option StyleKey :=
  if id = 0 then some {} else (b.styles.get? id).map (·.key)

end Browser

/-- The rendering state of one session. `size` is the geometry it was started with. -/
structure Session where
  size : TerminalSize
  sent : Sent := {}
  styles : StyleTable := {}
  palette : TerminalPalette := { indexed := Vector.replicate 256 ⟨0, 0, 0⟩ }

/-- What makes the session send: a projection, or a read of retained rows. -/
inductive Push where
  | view (view : TerminalView) (total scrollback : Nat)
  | history (history : TerminalHistory)

namespace Session

/-- The messages of one push, in the order they are sent. -/
def push (passes : Nat) (s : Session) : Push → Option (List ServerMessage × Session)
  | .view view total scrollback =>
    match s.sent.diff passes view s.styles total scrollback with
    | none => none
    | some (messages, sent, styles) =>
      some (messages, { s with sent, styles, palette := view.palette })
  | .history history =>
    match encodeHistory history s.palette passes s.styles false with
    | none => none
    | some (rows, pending, reset, styles) =>
      let ready :=
        if reset then [.ready s.size.cols s.size.rows (WirePalette.of s.palette)] else []
      let fresh := if pending = [] then [] else [.styles pending]
      some (ready ++ fresh ++ [.history history.start rows history.total history.scrollback],
        { s with styles })

def run (passes : Nat) (s : Session) : List Push → Option (List ServerMessage × Session)
  | [] => some ([], s)
  | push :: rest =>
    match s.push passes push with
    | none => none
    | some (messages, s) =>
      match s.run passes rest with
      | none => none
      | some (later, s) => some (messages ++ later, s)

end Session

/-- The last projection that was pushed. -/
def lastView : List Push → Option TerminalView
  | [] => none
  | .history _ :: rest => lastView rest
  | .view view _ _ :: rest => some ((lastView rest).getD view)

def frameSeqs (messages : List ServerMessage) : List Nat :=
  messages.filterMap fun
    | .frame seq _ _ _ _ => some seq
    | .ready .. | .styles _ | .modes .. | .history .. => none

end PtyRuntime.Client
