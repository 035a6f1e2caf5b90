import PtyRuntime.Domain.Terminal

/-! Owned projections of a terminal's screen and of its retained rows, with every field the
wire encoding reads. -/
namespace PtyRuntime.Client

/-- Literal sRGB components. -/
structure Rgb where
  red : UInt8
  green : UInt8
  blue : UInt8
  deriving DecidableEq, Repr

inductive TerminalColor where
  | default
  | palette (index : Fin 256)
  | rgb (red green blue : UInt8)
  deriving DecidableEq, Repr

inductive Underline where
  | none
  | single
  | double
  | curly
  | dotted
  | dashed
  deriving DecidableEq, Repr

/-- Complete visual style for one grid cell. -/
structure TerminalStyle where
  foreground : TerminalColor := .default
  background : TerminalColor := .default
  underlineColor : TerminalColor := .default
  underline : Underline := .none
  bold : Bool := false
  italic : Bool := false
  faint : Bool := false
  blink : Bool := false
  inverse : Bool := false
  invisible : Bool := false
  strikethrough : Bool := false
  overline : Bool := false
  deriving DecidableEq, Repr

structure TerminalCell where
  text : String
  width : UInt8
  style : TerminalStyle
  deriving DecidableEq, Repr

/-- Effective colors, including overrides, needed to resolve palette styles. -/
structure TerminalPalette where
  foreground : Option Rgb := none
  background : Option Rgb := none
  cursor : Option Rgb := none
  indexed : Vector Rgb 256
  deriving DecidableEq, Repr

structure TerminalCursor where
  col : Nat
  row : Nat
  visible : Bool
  pendingWrap : Bool
  deriving DecidableEq, Repr

inductive MouseTracking where
  | none
  | press
  | pressRelease
  | buttonMotion
  | anyMotion
  deriving DecidableEq, Repr

inductive MouseEncoding where
  | legacy
  | sgr
  deriving DecidableEq, Repr

structure TerminalModes where
  alternateScreen : Bool
  bracketedPaste : Bool
  applicationCursor : Bool
  mouse : MouseTracking
  mouseEncoding : MouseEncoding
  deriving DecidableEq, Repr

/-- Owned bounded active-screen projection, its cells row-major. -/
structure TerminalView where
  size : TerminalSize
  cursor : TerminalCursor
  modes : TerminalModes
  palette : TerminalPalette
  cells : List TerminalCell
  complete : cells.length = size.cols * size.rows
  deriving DecidableEq

/-- A bounded read of retained rows, oldest first. -/
structure TerminalHistory where
  start : Nat
  cols : Nat
  cells : List TerminalCell
  total : Nat
  scrollback : Nat
  deriving DecidableEq, Repr

end PtyRuntime.Client
