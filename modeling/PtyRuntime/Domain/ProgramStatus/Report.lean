import PtyRuntime.Domain.Identity
import Mathlib.Data.List.DropRight

/-! Program status reports: the record values and the parser of one report
body. Text is kept as the UTF-8 bytes of the source's strings, since every
operation on it, comparison included, is an operation on those bytes. -/
namespace PtyRuntime

/-- The bytes of an ASCII literal. -/
def ascii (text : String) : Bytes := text.toList.map Char.toUInt8

def isAsciiLowercase (b : UInt8) : Bool := 'a'.toUInt8 ≤ b && b ≤ 'z'.toUInt8
def isAsciiUppercase (b : UInt8) : Bool := 'A'.toUInt8 ≤ b && b ≤ 'Z'.toUInt8
def isAsciiDigit (b : UInt8) : Bool := '0'.toUInt8 ≤ b && b ≤ '9'.toUInt8

def isAsciiAlphanumeric (b : UInt8) : Bool :=
  isAsciiLowercase b || isAsciiUppercase b || isAsciiDigit b

/-- Space, tab, line feed, form feed and carriage return. -/
def isAsciiWhitespace (b : UInt8) : Bool :=
  b == 0x20 || b == 0x09 || b == 0x0a || b == 0x0c || b == 0x0d

def trimAscii (bytes : Bytes) : Bytes :=
  (bytes.dropWhile isAsciiWhitespace).rdropWhile isAsciiWhitespace

/-- `std::str::from_utf8(bytes).is_ok()`. -/
def isUtf8 (bytes : Bytes) : Bool := ByteArray.validateUTF8 ⟨bytes.toArray⟩

/-- `slice::strip_prefix`. -/
def stripStart (start bytes : Bytes) : Option Bytes :=
  if start.isPrefixOf bytes then some (bytes.drop start.length) else none

/-- A program's explicitly reported state. -/
inductive ProgramState where
  | idle
  | working
  | done
  | blocked
  | error
  deriving DecidableEq, Repr

/-- Why an untrusted program reports that it is blocked. -/
inductive ProgramStatusKind where
  | permission
  | question
  | auth
  deriving DecidableEq, Repr

/-- An owned, bounded record. Text is plain UTF-8, never markup. -/
structure ProgramStatusRecord where
  id : Bytes
  state : ProgramState
  app : Option Bytes
  resolvedApp : Option Bytes
  kind : Option ProgramStatusKind
  progress : Option Nat
  msg : Option Bytes
  title : Option Bytes
  deriving DecidableEq, Repr

inductive Mutation where
  | report (record : ProgramStatusRecord)
  | clear (id : Bytes)
  | exit
  | reset
  deriving DecidableEq, Repr

namespace Report

def idByte (b : UInt8) : Bool := isAsciiAlphanumeric b || (ascii "_.+-").contains b

def validId (id : Bytes) : Bool :=
  !id.isEmpty && (id.splitOn '/'.toUInt8).length ≤ 8 &&
    (id.splitOn '/'.toUInt8).all fun s => !s.isEmpty && s.length ≤ 32 && s.all idByte

/-- The six bits of one base64 digit. -/
def sextet (b : UInt8) : Option UInt32 :=
  if isAsciiUppercase b then some (b - 'A'.toUInt8).toUInt32
  else if isAsciiLowercase b then some (b - 'a'.toUInt8 + 26).toUInt32
  else if isAsciiDigit b then some (b - '0'.toUInt8 + 52).toUInt32
  else if b == '+'.toUInt8 then some 62
  else if b == '/'.toUInt8 then some 63
  else none

/-- The decoder's output, the bits not yet written to it and their number. -/
structure Bits where
  out : Bytes := []
  bits : UInt32 := 0
  count : UInt32 := 0

def Bits.push (d : Bits) (b : UInt8) : Option Bits := do
  let n ← sextet b
  let bits := (d.bits <<< 6) ||| n
  let count := d.count + 6
  if 8 ≤ count then
    let count := count - 8
    some { out := d.out ++ [(bits >>> count).toUInt8], bits := bits &&& ((1 <<< count) - 1), count }
  else some { d with bits, count }

/-- `char::is_control`: the Unicode category Cc. -/
def isControl (c : Char) : Bool := c.val < 0x20 || (0x7f ≤ c.val && c.val ≤ 0x9f)

/-- Unwrapped base64 of at most `limit` bytes of UTF-8 without control characters. -/
def decode (value : Bytes) (limit : Nat) : Option Bytes := do
  let data := value.rdropWhile (· == '='.toUInt8)
  let padding := value.length - data.length
  if padding > 2 || data.length % 4 == 1 ||
      (padding > 0 && (value.length % 4 != 0 || padding != (4 - data.length % 4) % 4)) then
    none
  let decoded ← data.foldlM Bits.push {}
  if decoded.bits != 0 || decoded.out.length > limit then
    none
  let text ← String.fromUTF8? ⟨decoded.out.toArray⟩
  if text.toList.any isControl then
    none
  some decoded.out

/-- The values of the recognised keys; a later pair replaces an earlier one. -/
structure Fields where
  state : Option Bytes := none
  id : Option Bytes := none
  app : Option Bytes := none
  kind : Option Bytes := none
  progress : Option Bytes := none
  msg : Option Bytes := none
  title : Option Bytes := none

/-- Byte limits that even a malformed occurrence must not evade. -/
def oversize (key value : Bytes) : Bool :=
  (key == ascii "msg" && value.length > 2732) || (key == ascii "title" && value.length > 256) ||
    (key == ascii "app" && value.length > 32) || (key == ascii "id" && value.length > 128)

def setField (fields : Fields) (key value : Bytes) : Option Fields :=
  if key == ascii "state" then some { fields with state := some value }
  else if key == ascii "app" then some { fields with app := some value }
  else if key == ascii "id" then some { fields with id := some value }
  else if key == ascii "kind" then some { fields with kind := some value }
  else if key == ascii "progress" then some { fields with progress := some value }
  else if key == ascii "msg" then
    (decode value 2048).map fun text => { fields with msg := some text }
  else if key == ascii "title" then
    (decode value 192).map fun text => { fields with title := some text }
  else some fields

/-- One `key=value` pair: `none` rejects the whole report, and a pair that is
only skipped leaves the fields as they are. -/
def parsePair (fields : Fields) (pair : Bytes) : Option Fields :=
  match pair.findIdx? (· == '='.toUInt8) with
  | none => some fields
  | some separator =>
    let key := trimAscii (pair.take separator)
    let value := trimAscii (pair.drop (separator + 1))
    if key.length > 16 then none
    else if !isUtf8 key then some fields
    else if key.isEmpty || !key.all isAsciiLowercase then some fields
    else if oversize key value then none
    else if !isUtf8 value then if key == ascii "id" then none else some fields
    else if key == ascii "id" && !validId value then none
    else if !value.all (fun b => isAsciiAlphanumeric b || (ascii "_.,+/=-").contains b) then
      some fields
    else setField fields key value

/-- `str::parse::<u8>` on a text of decimal digits. -/
def parseU8 (digits : Bytes) : Option Nat :=
  let n := digits.foldl (fun n b => n * 10 + (b - '0'.toUInt8).toNat) 0
  if n ≤ 255 then some n else none

def parseKind (kind : Option Bytes) : Option ProgramStatusKind :=
  if kind = some (ascii "permission") then some .permission
  else if kind = some (ascii "question") then some .question
  else if kind = some (ascii "auth") then some .auth
  else none

def parseProgress (progress : Option Bytes) : Option Nat :=
  ((progress.filter fun s => !s.isEmpty && s.all isAsciiDigit).bind parseU8).filter (· ≤ 100)

/-- The record of a report in the given state. -/
def record (fields : Fields) (state : ProgramState) : ProgramStatusRecord where
  id := fields.id.getD []
  state
  app := fields.app.filter fun v => !v.isEmpty && v.all idByte
  resolvedApp := none
  kind := if state = .blocked then parseKind fields.kind else none
  progress :=
    if state = .working ∨ state = .blocked then parseProgress fields.progress else none
  msg := fields.msg
  title := fields.title

def parse (body : Bytes) : Option Mutation := do
  let fields ← (body.splitOn ':'.toUInt8).foldlM parsePair {}
  let state ← fields.state
  if state == ascii "idle" then some (.report (record fields .idle))
  else if state == ascii "working" then some (.report (record fields .working))
  else if state == ascii "done" then some (.report (record fields .done))
  else if state == ascii "blocked" then some (.report (record fields .blocked))
  else if state == ascii "error" then some (.report (record fields .error))
  else if state == ascii "clear" then some (.clear (fields.id.getD []))
  else none

end Report
end PtyRuntime
