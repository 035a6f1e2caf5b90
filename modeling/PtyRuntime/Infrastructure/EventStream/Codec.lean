import PtyRuntime.ExactCodec
import PtyRuntime.Infrastructure.EventStream.Status

/-! The versioned binary schema of one raw observation, and the plain data of the
external event store that carries it. A panicking slice operation of the decoder
is `none`. -/
namespace PtyRuntime.EventStream

@[ext] structure SchemaRef where
  id : String
  version : Nat
  deriving DecidableEq, Repr

/-- A position of the external store; unrelated to a PTY byte position. -/
structure StoreCursor (StreamKey : Type) where
  stream : StreamKey
  version : Nat
  offset : Nat
  deriving DecidableEq, Repr

structure NewEvent (EventId : Type) where
  id : EventId
  schema : SchemaRef
  payload : Bytes
  deriving DecidableEq, Repr

structure Record (StreamKey EventId : Type) where
  cursor : StoreCursor StreamKey
  event : NewEvent EventId
  deriving DecidableEq, Repr

def SCHEMA : String := "nessalabs.pty-runtime.output"

def VERSION : Nat := 1

/-- `PTYR`. -/
def MAGIC : Bytes := [80, 84, 89, 82]

def MAX_PAGE : Nat := 65536

def MAX_ENCODED : Nat := MAX_PAGE + 64

/-- A decoded typed observation and its independent PTY byte position. -/
structure DecodedOutput where
  byteCursor : ReplayCursor
  output : OutputEvent
  deriving DecidableEq, Repr

/-- Tag, end position and body size of an event that may be published at a cursor. -/
def layout (start : ReplayCursor) : OutputEvent → Except PublicationError (UInt8 × ReplayCursor × Nat)
  | .replay (.bytes first next bytes) =>
    if first = start ∧ next.lifetime = start.lifetime ∧ bytes ≠ [] ∧ bytes.length ≤ MAX_PAGE ∧
        checkedSub next.offset start.offset = some bytes.length then
      .ok (1, next, bytes.length)
    else .error .invalidRecord
  | .replay (.gap first stop) =>
    if first = start ∧ stop.lifetime = start.lifetime ∧ start.offset < stop.offset then
      .ok (2, stop, 0)
    else .error .invalidRecord
  | .complete completion =>
    if completion.status.completion.isSome then .ok (3, start, 16) else .error .invalidRecord
  | .replay .pending => .error .invalidRecord

def encodeExit : Option ExitStatus → Bytes
  | none => 0 :: LittleEndian.bytesOfInt 4 0
  | some (.code code) => 1 :: LittleEndian.bytesOfInt 4 code
  | some (.signal code) => 2 :: LittleEndian.bytesOfInt 4 code

def encodeDrain : Option DrainOutcome → Bytes
  | none => 0 :: LittleEndian.bytesOf 2 0
  | some .eof => 1 :: LittleEndian.bytesOf 2 0
  | some .truncated => 2 :: LittleEndian.bytesOf 2 0
  | some (.failed error) => 3 :: LittleEndian.bytesOf 2 (processCode error)

def encodeCompletion (completion : Completion) : Bytes :=
  let status := completion.status
  encodeExit status.exit ++ (encodeDrain status.drain ++
    (LittleEndian.bytesOf 2 ((status.supervisionError.map processCode).getD 0) ++
      (LittleEndian.bytesOf 2 ((status.admissionError.map runtimeCode).getD 0) ++
        [if status.cancellationRequested then 1 else 0])))

def encodeHeader (tag : UInt8) (start next : ReplayCursor) : Bytes :=
  MAGIC ++ (tag :: (LittleEndian.bytesOf 8 start.lifetime.owner ++
    (LittleEndian.bytesOf 8 start.lifetime.sequence ++
      (LittleEndian.bytesOf 8 start.offset ++ LittleEndian.bytesOf 8 next.offset))))

def encodeBody : OutputEvent → Bytes
  | .replay (.bytes _ _ bytes) => bytes
  | .complete completion => encodeCompletion completion
  | _ => []

/-- `allocate` is the allocator's answer to the exact reservation. -/
def encode (allocate : Nat → Bool) (start : ReplayCursor) (event : OutputEvent) :
    Except PublicationError (Bytes × ReplayCursor × Bool) :=
  match layout start event with
  | .error error => .error error
  | .ok (tag, next, body) =>
    if allocate (37 + body) then
      .ok (encodeHeader tag start next ++ encodeBody event, next, tag = 3)
    else .error .capacity

abbrev Input := ByteReader PublicationError

namespace Input

open ByteReader

/-- `split_at`, which panics past the end. -/
def splitAt (count : Nat) : Input Bytes := fun input =>
  if count ≤ input.length then some (.ok (input.take count, input.drop count)) else none

def take (count : Nat) : Input Bytes := fun input =>
  if input.length < count then some (.error .invalidRecord) else splitAt count input

/-- `[0]`, which panics on an empty slice. -/
def head (bytes : Bytes) : Input UInt8 := fun input => bytes.head?.map fun byte => .ok (byte, input)

def byte : Input UInt8 := do
  let bytes ← take 1
  head bytes

/-- The bytes as an array of the width a fixed-width number has. -/
def number (width : Nat) : Input Nat := do
  let bytes ← take width
  if bytes.length = width then pure (LittleEndian.natOf bytes) else fail .invalidRecord

def u16 : Input Nat := number 2

def u64 : Input Nat := number 8

def i32 : Input Int := do
  let bytes ← take 4
  if bytes.length = 4 then pure (LittleEndian.intOf bytes) else fail .invalidRecord

end Input

open Input ByteReader

def decodeExit : Input (Option ExitStatus) := do
  let tag ← byte
  let code ← i32
  if tag = 0 ∧ code = 0 then pure none
  else if tag = 1 then pure (some (.code code))
  else if tag = 2 then pure (some (.signal code))
  else fail .invalidRecord

def decodeDrain : Input (Option DrainOutcome) := do
  let tag ← byte
  let code ← u16
  if tag = 0 ∧ code = 0 then pure none
  else if tag = 1 ∧ code = 0 then pure (some .eof)
  else if tag = 2 ∧ code = 0 then pure (some .truncated)
  else if tag = 3 then ofExcept ((processFrom code).map fun error => some (.failed error))
  else fail .invalidRecord

def decodeFlag : Input Bool := do
  let byte ← byte
  if byte = 0 then pure false else if byte = 1 then pure true else fail .invalidRecord

/-- A code where zero means that there is no error. -/
def optional {α : Type} (decode : Nat → Except PublicationError α) (code : Nat) :
    Except PublicationError (Option α) :=
  if code = 0 then .ok none else (decode code).map some

def decodeCompletion : Input Completion := do
  let exit ← decodeExit
  let drain ← decodeDrain
  let supervision ← u16
  let admission ← u16
  let cancellationRequested ← decodeFlag
  let supervisionError ← ofExcept (optional processFrom supervision)
  let admissionError ← ofExcept (optional runtimeFrom admission)
  let status : SessionStatus :=
    { exit, drain, cancellationRequested, supervisionError, admissionError }
  match status.completion with
  | some completion => pure completion
  | none => fail .invalidRecord

/-- The fields in front of the body. -/
structure Header where
  tag : UInt8
  start : ReplayCursor
  next : ReplayCursor
  deriving DecidableEq, Repr

def decodeHeader : Input Header := do
  let magic ← take 4
  if magic ≠ MAGIC then fail .invalidRecord
  else do
    let tag ← byte
    let owner ← u64
    let sequence ← u64
    let start ← u64
    let next ← u64
    pure { tag, start := ⟨⟨owner, sequence⟩, start⟩, next := ⟨⟨owner, sequence⟩, next⟩ }

def decodePage (start next : ReplayCursor) : Input OutputEvent := do
  let rest ← remaining
  if rest = [] ∨ MAX_PAGE < rest.length ∨ checkedSub next.offset start.offset ≠ some rest.length then
    fail .invalidRecord
  else do
    let bytes ← take rest.length
    pure (.replay (.bytes start next bytes))

def decodeBody (header : Header) : Input OutputEvent :=
  if header.tag = 1 then decodePage header.start header.next
  else if header.tag = 2 ∧ header.start.offset < header.next.offset then
    pure (.replay (.gap header.start header.next))
  else if header.tag = 3 ∧ header.next = header.start then do
    let completion ← decodeCompletion
    pure (.complete completion)
  else fail .invalidRecord

def decodeOutput : Input DecodedOutput := do
  let header ← decodeHeader
  let output ← decodeBody header
  pure { byteCursor := header.next, output }

/-- `cursorVersion` is the external store's `CURSOR_VERSION`. -/
def decodeRecord {StreamKey EventId : Type} (cursorVersion : Nat) (record : Record StreamKey EventId) :
    Option (Except PublicationError DecodedOutput) :=
  if record.event.schema.id ≠ SCHEMA ∨ record.event.schema.version ≠ VERSION ∨
      record.cursor.version ≠ cursorVersion ∨ record.cursor.offset = 0 then
    some (.error .invalidRecord)
  else if MAX_ENCODED < record.event.payload.length then some (.error .invalidRecord)
  else
    match decodeOutput record.event.payload with
    | none => none
    | some (.error error) => some (.error error)
    | some (.ok (decoded, rest)) =>
      if rest ≠ [] then some (.error .invalidRecord) else some (.ok decoded)

end PtyRuntime.EventStream
