import PtyRuntime.Buffer
import PtyRuntime.Domain.ProgramStatus.Store

/-! The program status store with the room its strings and vectors own, which is what the
memory reservations are about. Sizes are those of a target with 64-bit words. -/
namespace PtyRuntime

/-- `size_of::<usize>()`. -/
def wordBytes : Nat := 8

/-- `size_of::<String>()`: a pointer, a length and a capacity. -/
def stringBytes : Nat := 3 * wordBytes

/-- `size_of::<ProgramStatusRecord>()`: five strings, an absent one told by its capacity,
four bytes of state, kind and progress, rounded up to a word. -/
def recordBytes : Nat := (5 * stringBytes + 4 + (wordBytes - 1)) / wordBytes * wordBytes

/-- `size_of::<Mutation>()`: the string of a clear, whose capacity tells the other cases. -/
def mutationBytes : Nat := stringBytes

/-- The capacity a vector of bytes starts with when it first grows. -/
def leastBytes : Nat := 8

/-- The same for the vectors of mutations, positions and records. -/
def leastItems : Nat := 4

/-- A `String` or a `Vec<u8>`. -/
abbrev Text := Buffer UInt8

structure OwnedRecord where
  id : Text
  state : ProgramState
  app : Option Text
  resolvedApp : Option Text
  kind : Option ProgramStatusKind
  progress : Option Nat
  msg : Option Text
  title : Option Text

def OwnedRecord.heapBytes (r : OwnedRecord) : Nat :=
  r.id.capacity + ([r.app, r.resolvedApp, r.msg, r.title].map fun v => (v.map (·.capacity)).getD 0).sum

inductive OwnedMutation where
  | report (record : OwnedRecord)
  | clear (id : Text)
  | exit
  | reset

namespace OwnedReport

/-- The output is sized before it is validated. -/
def decode (value : Bytes) (limit : Nat) : Option Text :=
  let data := value.rdropWhile (· == '='.toUInt8)
  (Report.decode value limit).map ((Buffer.withCapacity (data.length * 3 / 4)).extend leastBytes)

/-- All but the decoded texts are borrowed from the body. -/
structure Fields where
  state : Option Bytes := none
  id : Option Bytes := none
  app : Option Bytes := none
  kind : Option Bytes := none
  progress : Option Bytes := none
  msg : Option Text := none
  title : Option Text := none

def setField (fields : Fields) (key value : Bytes) : Option Fields :=
  if key == ascii "state" then some { fields with state := some value }
  else if key == ascii "app" then some { fields with app := some value }
  else if key == ascii "id" then some { fields with id := some value }
  else if key == ascii "kind" then some { fields with kind := some value }
  else if key == ascii "progress" then some { fields with progress := some value }
  else if key == ascii "msg" then
    (decode value 2048).map fun text => { fields with msg := some text }
  else if key == ascii "title" then
    (decode value 192).map fun text => { fields with title := some text }
  else some fields

def parsePair (fields : Fields) (pair : Bytes) : Option Fields :=
  match pair.findIdx? (· == '='.toUInt8) with
  | none => some fields
  | some separator =>
    let key := trimAscii (pair.take separator)
    let value := trimAscii (pair.drop (separator + 1))
    if key.length > 16 then none
    else if !isUtf8 key then some fields
    else if key.isEmpty || !key.all isAsciiLowercase then some fields
    else if Report.oversize key value then none
    else if !isUtf8 value then if key == ascii "id" then none else some fields
    else if key == ascii "id" && !Report.validId value then none
    else if !value.all (fun b => isAsciiAlphanumeric b || (ascii "_.,+/=-").contains b) then
      some fields
    else setField fields key value

/-- `to_owned` copies what is kept of the borrowed values. -/
def record (fields : Fields) (state : ProgramState) : OwnedRecord where
  id := .copy (fields.id.getD [])
  state
  app := (fields.app.filter fun v => !v.isEmpty && v.all Report.idByte).map .copy
  resolvedApp := none
  kind := if state = .blocked then Report.parseKind fields.kind else none
  progress :=
    if state = .working ∨ state = .blocked then Report.parseProgress fields.progress else none
  msg := fields.msg
  title := fields.title

def parse (body : Bytes) : Option OwnedMutation := do
  let fields ← (body.splitOn ':'.toUInt8).foldlM parsePair {}
  let state ← fields.state
  if state == ascii "idle" then some (.report (record fields .idle))
  else if state == ascii "working" then some (.report (record fields .working))
  else if state == ascii "done" then some (.report (record fields .done))
  else if state == ascii "blocked" then some (.report (record fields .blocked))
  else if state == ascii "error" then some (.report (record fields .error))
  else if state == ascii "clear" then some (.clear (.copy (fields.id.getD [])))
  else none

end OwnedReport

structure OwnedScanner where
  mode : Scanner.Mode := .ground
  body : Text := .new
  length : Nat := 0
  escaped : Bool := false

inductive OwnedSignal where
  | mutation (m : OwnedMutation)
  | query

namespace OwnedScanner

/-- The derived `clone`. -/
def clone (s : OwnedScanner) : OwnedScanner := { s with body := .copy s.body.items }

def plainChunk (s : OwnedScanner) (input : Bytes) : Bool :=
  s.mode = .ground && !input.contains Scanner.esc

def retainedBytes (s : OwnedScanner) : Nat := s.body.capacity

def complete (body : Bytes) : Option OwnedSignal :=
  match stripStart (ascii "7501;") body with
  | some report =>
    if report = ascii "?" then some .query else (OwnedReport.parse report).map .mutation
  | none =>
    match stripStart (ascii "133;") body with
    | some mark =>
      if (mark.splitOn ';'.toUInt8).head? = some (ascii "A") then some (.mutation .exit) else none
    | none => none

/-- The scan loop's body for one byte; the body keeps its room when it is cleared. -/
def accept (s : OwnedScanner) (byte : UInt8) : OwnedScanner × Option OwnedSignal :=
  match s.mode with
  | .ground => ({ s with mode := .escape }, none)
  | .escape =>
    if byte = ']'.toUInt8 then
      ({ mode := .osc, length := 2, body := s.body.clear, escaped := false }, none)
    else if byte ∈ ascii "PX^_" then ({ s with mode := .string, escaped := false }, none)
    else if byte = 'c'.toUInt8 then ({ s with mode := .ground }, some (.mutation .reset))
    else if byte = Scanner.esc then (s, none)
    else ({ s with mode := .ground }, none)
  | .osc | .string =>
    if byte = 0x18 ∨ byte = 0x1a then ({ s with mode := .ground, body := s.body.clear }, none)
    else
      let osc := s.mode = .osc
      let length := min (s.length + 1) u64Max
      let terminated := s.escaped ∧ byte = '\\'.toUInt8
      if terminated ∨ (osc ∧ byte = 7) then
        let body := if terminated then s.body.dropLast else s.body
        ({ mode := .ground, body := body.clear, length, escaped := false },
          if osc ∧ length ≤ 4096 then complete body.items else none)
      else
        ({ s with
          length
          body := if osc ∧ length ≤ 4096 then s.body.push leastBytes byte else s.body
          escaped := byte = Scanner.esc }, none)

/-- The loop over the input left after `offset` bytes. Ground text up to the next escape
byte is passed over. -/
def scanLoop (s : OwnedScanner) (offset : Nat) (mutations : Buffer OwnedMutation) (queries : Buffer Nat) :
    Bytes → OwnedScanner × Buffer OwnedMutation × Buffer Nat
  | [] => (s, mutations, queries)
  | byte :: rest =>
    if s.mode = .ground ∧ byte ≠ Scanner.esc then s.scanLoop (offset + 1) mutations queries rest
    else
      match s.accept byte with
      | (next, some (.mutation m)) => next.scanLoop (offset + 1) (mutations.push leastItems m) queries rest
      | (next, some .query) => next.scanLoop (offset + 1) mutations (queries.push leastItems (offset + 1)) rest
      | (next, none) => next.scanLoop (offset + 1) mutations queries rest

def scan (s : OwnedScanner) (input : Bytes) : OwnedScanner × Buffer OwnedMutation × Buffer Nat :=
  if s.plainChunk input then (s, .new, .new) else s.scanLoop 0 .new .new input

end OwnedScanner

/-- Two reset sequences and the room of the vector that lists them. -/
example : (({} : OwnedScanner).scan [0x1b, 0x63, 0x1b, 0x63]).2.1.capacity = 4 := by decide

structure OwnedPlan where
  identity : Nat
  generation : Nat
  scanner : OwnedScanner
  mutations : Buffer OwnedMutation
  queries : Buffer Nat

/-- What a mutation owns beside its place in the plan. A record is boxed. -/
def OwnedMutation.heapBytes : OwnedMutation → Nat
  | .report record => recordBytes + record.heapBytes
  | .clear id => id.capacity
  | .exit | .reset => 0

def OwnedPlan.retainedBytes (plan : OwnedPlan) : Nat :=
  plan.scanner.retainedBytes + plan.queries.capacity * wordBytes + plan.mutations.capacity * mutationBytes +
    (plan.mutations.items.map OwnedMutation.heapBytes).sum

structure OwnedSnapshot where
  revision : Nat
  records : Buffer OwnedRecord

def OwnedSnapshot.retainedBytes (snapshot : OwnedSnapshot) : Nat :=
  snapshot.records.capacity * recordBytes + (snapshot.records.items.map OwnedRecord.heapBytes).sum

structure OwnedStore where
  identity : Nat
  generation : Nat := 0
  scanner : OwnedScanner := {}
  records : Buffer OwnedRecord := .new
  revision : Nat := 0
  limit : Nat := 256

namespace OwnedStore

def new (identity recordLimit : Nat) : Except ProgramStatusError OwnedStore :=
  if 64 ≤ recordLimit ∧ recordLimit ≤ 256 then .ok { identity, limit := recordLimit }
  else .error .invalidRecordLimit

def recordReservation (s : OwnedStore) : Nat :=
  8192 + s.limit * (2 * recordBytes + 128 + 32 + 32 + 2048 + 192)

def scanReservation (chunkLen : Nat) : Except ProgramStatusError Nat :=
  ProgramStatusStore.scanReservation mutationBytes chunkLen

def scanReservationFor (s : OwnedStore) (chunk : Bytes) : Except ProgramStatusError Nat :=
  if chunk.length > maxScanBytes then .error .chunkTooLarge
  else if s.scanner.plainChunk chunk then .ok 0
  else scanReservation chunk.length

def retainedBytes (s : OwnedStore) : Nat :=
  s.scanner.retainedBytes + s.records.capacity * recordBytes + (s.records.items.map OwnedRecord.heapBytes).sum

def scan (s : OwnedStore) (chunk : Bytes) : Except ProgramStatusError OwnedPlan :=
  if chunk.length > maxScanBytes then .error .chunkTooLarge
  else if s.generation = u64Max ∨ s.revision > u64Max - (chunk.length + 1) then
    .error .revisionExhausted
  else
    let (scanner, mutations, queries) := s.scanner.clone.scan chunk
    .ok { identity := s.identity, generation := s.generation, scanner, mutations, queries }

def retain (s : OwnedStore) (keep : OwnedRecord → Bool) : OwnedStore :=
  let records := s.records.filter keep
  { s with
    records
    revision := if records.items.length ≠ s.records.items.length then s.revision + 1 else s.revision }

def apply (s : OwnedStore) : OwnedMutation → OwnedStore
  | .report record =>
    let records :=
      match s.records.items.findIdx? (·.id.items == record.id.items) with
      | some index => s.records.eraseIdx index
      | none => if s.records.items.length = s.limit then s.records.eraseIdx 0 else s.records
    { s with records := records.push leastItems record, revision := s.revision + 1 }
  | .clear id =>
    s.retain fun r => !id.items.isEmpty && r.id.items != id.items &&
      !((stripStart id.items r.id.items).any fun suffix => (ascii "/").isPrefixOf suffix)
  | .reset => s.retain fun _ => false
  | .exit => s.retain fun r => r.state != .working && r.state != .blocked

def commit (s : OwnedStore) (plan : OwnedPlan) : Except ProgramStatusError Unit × OwnedStore :=
  if s.identity ≠ plan.identity ∨ s.generation ≠ plan.generation then (.error .stalePlan, s)
  else
    let applied := plan.mutations.items.foldl apply s
    (.ok (), { applied with scanner := plan.scanner, generation := applied.generation + 1 })

def processExited (s : OwnedStore) : Except ProgramStatusError Unit × OwnedStore :=
  if s.generation = u64Max ∨ s.revision = u64Max then (.error .revisionExhausted, s)
  else
    let applied := s.apply .exit
    (.ok (), { applied with generation := applied.generation + 1 })

def snapshotReservation (s : OwnedStore) : Nat :=
  s.records.items.length * (recordBytes + 32) + (s.records.items.map OwnedRecord.heapBytes).sum

/-- The derived `clone` of a string that may be absent. -/
def cloneText (text : Option Text) : Option Text := text.map fun text => .copy text.items

/-- The app of the nearest ancestor that names one. -/
def resolveApp (records : List OwnedRecord) (ancestor : Bytes) : Option Text :=
  match (records.find? (·.id.items == ancestor)).bind (·.app) with
  | some app => some (.copy app.items)
  | none => if _named : ancestor = [] then none else resolveApp records (ProgramStatusStore.parent ancestor)
termination_by ancestor.length
decreasing_by exact ProgramStatusStore.parent_length _named

/-- The clone of a record with its app resolved. -/
def cloneRecord (records : List OwnedRecord) (r : OwnedRecord) : OwnedRecord :=
  { r with
    id := .copy r.id.items
    app := cloneText r.app
    resolvedApp := resolveApp records r.id.items
    msg := cloneText r.msg
    title := cloneText r.title }

/-- `records`. -/
def snapshot (s : OwnedStore) : OwnedSnapshot where
  revision := s.revision
  records := .copy (s.records.items.map (cloneRecord s.records.items))

end OwnedStore

/-- A store and the plans scanned from it that have been neither committed nor dropped. -/
structure OwnedLife where
  store : OwnedStore
  plans : List OwnedPlan := []

namespace OwnedLife

inductive Event where
  | scan (chunk : Bytes)
  | commit (index : Nat)
  | foreign (plan : OwnedPlan)
  | drop (index : Nat)
  | processExited

def step (life : OwnedLife) : Event → OwnedLife
  | .scan chunk =>
    match life.store.scan chunk with
    | .error _ => life
    | .ok plan => { life with plans := life.plans ++ [plan] }
  | .commit index =>
    match life.plans[index]? with
    | none => life
    | some plan => { store := (life.store.commit plan).2, plans := life.plans.eraseIdx index }
  -- a plan of another store
  | .foreign plan =>
    if plan.identity = life.store.identity then life else { life with store := (life.store.commit plan).2 }
  | .drop index => { life with plans := life.plans.eraseIdx index }
  | .processExited => { life with store := life.store.processExited.2 }

def run (life : OwnedLife) (events : List Event) : OwnedLife := events.foldl step life

end OwnedLife
end PtyRuntime
