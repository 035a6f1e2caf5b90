import PtyRuntime.Domain.ProgramStatus.Report
import PtyRuntime.Transducer

/-! Transactional scanning of program status reports and the session-owned
records. A scan plans from the committed continuation without moving it; a
commit applies the plan's mutations in order and adopts its continuation. -/
namespace PtyRuntime

/-- Hard bound on a single transactional scan. -/
def maxScanBytes : Nat := 1024 * 1024

/-- The fixed feature-detection reply. -/
def programStatusReply : Bytes := 0x1b :: ascii "]7501;?" ++ [0x1b, '\\'.toUInt8]

/-- Stable failures that never include program output. -/
inductive ProgramStatusError where
  | invalidRecordLimit
  | chunkTooLarge
  | stalePlan
  | revisionExhausted
  deriving DecidableEq, Repr

namespace Scanner

inductive Mode where
  | ground
  | escape
  | osc
  | string
  deriving DecidableEq, Repr

end Scanner

/-- The parser's continuation. `length` keeps counting past the stored body. -/
structure Scanner where
  mode : Scanner.Mode := .ground
  body : Bytes := []
  length : Nat := 0
  escaped : Bool := false
  deriving DecidableEq, Repr

/-- What one byte can complete. -/
inductive Signal where
  | mutation (m : Mutation)
  | query
  deriving DecidableEq, Repr

namespace Scanner

/-- ESC, which opens every recognised sequence. -/
def esc : UInt8 := 0x1b

def plainChunk (s : Scanner) (input : Bytes) : Bool :=
  s.mode = .ground && !input.contains esc

/-- The meaning of a complete OSC body within the length limit. -/
def complete (body : Bytes) : Option Signal :=
  match stripStart (ascii "7501;") body with
  | some report =>
    if report = ascii "?" then some .query else (Report.parse report).map .mutation
  | none =>
    match stripStart (ascii "133;") body with
    | some mark =>
      if (mark.splitOn ';'.toUInt8).head? = some (ascii "A") then some (.mutation .exit) else none
    | none => none

/-- The scan loop's body for one byte. In ground mode the loop has skipped to an
escape byte before it gets here. -/
def accept (s : Scanner) (byte : UInt8) : Scanner × Option Signal :=
  match s.mode with
  | .ground => ({ s with mode := .escape }, none)
  | .escape =>
    if byte = ']'.toUInt8 then
      ({ mode := .osc, length := 2, body := [], escaped := false }, none)
    else if byte ∈ ascii "PX^_" then ({ s with mode := .string, escaped := false }, none)
    else if byte = 'c'.toUInt8 then ({ s with mode := .ground }, some (.mutation .reset))
    else if byte = esc then (s, none)
    else ({ s with mode := .ground }, none)
  | .osc | .string =>
    -- CAN and SUB abandon the string; `length` and `escaped` keep their old values.
    if byte = 0x18 ∨ byte = 0x1a then ({ s with mode := .ground, body := [] }, none)
    else
      let osc := s.mode = .osc
      let length := min (s.length + 1) u64Max
      let terminated := s.escaped ∧ byte = '\\'.toUInt8
      if terminated ∨ (osc ∧ byte = 7) then
        let body := if terminated then s.body.dropLast else s.body
        ({ mode := .ground, body := [], length, escaped := false },
          if osc ∧ length ≤ 4096 then complete body else none)
      else
        ({ s with
          length
          body := if osc ∧ length ≤ 4096 then s.body ++ [byte] else s.body
          escaped := byte = esc }, none)

/-- Ground text up to the next escape byte is skipped at once. -/
def skip (s : Scanner) (rest : Bytes) : Nat :=
  if s.mode = .ground then rest.findIdx (· == esc) else 0

/-- The loop over the input left after `offset` bytes; it ends early when only
ground text without an escape byte is left. -/
def scanLoop (s : Scanner) (offset : Nat) (rest : Bytes) (mutations : List Mutation)
    (queries : List Nat) : Scanner × List Mutation × List Nat :=
  match _remaining : rest.drop (s.skip rest) with
  | [] => (s, mutations, queries)
  | byte :: tail =>
    match s.accept byte with
    | (next, some (.mutation m)) =>
      next.scanLoop (offset + s.skip rest + 1) tail (mutations ++ [m]) queries
    | (next, some .query) =>
      next.scanLoop (offset + s.skip rest + 1) tail mutations
        (queries ++ [offset + s.skip rest + 1])
    | (next, none) => next.scanLoop (offset + s.skip rest + 1) tail mutations queries
termination_by rest.length
decreasing_by
  all_goals
    have shorter := congrArg List.length _remaining
    simp only [List.length_drop, List.length_cons] at shorter
    omega

def scan (s : Scanner) (input : Bytes) : Scanner × List Mutation × List Nat :=
  if s.plainChunk input then (s, [], []) else s.scanLoop 0 input [] []

end Scanner

/-- A scan's bounded continuation, ordered mutations and query endpoints. -/
structure ProgramStatusPlan where
  identity : Nat
  generation : Nat
  scanner : Scanner
  mutations : List Mutation
  queries : List Nat
  deriving DecidableEq, Repr

/-- Owned bounded snapshot, ordered from least to most recently updated. -/
structure ProgramStatusSnapshot where
  revision : Nat
  records : List ProgramStatusRecord
  deriving DecidableEq, Repr

/-- A session's scanner and record set. `identity` stands for the allocation that
distinguishes one store from another. -/
structure ProgramStatusStore where
  identity : Nat
  generation : Nat := 0
  scanner : Scanner := {}
  records : List ProgramStatusRecord := []
  revision : Nat := 0
  limit : Nat := 256
  deriving DecidableEq, Repr

namespace ProgramStatusStore

def new (identity recordLimit : Nat) : Except ProgramStatusError ProgramStatusStore :=
  if 64 ≤ recordLimit ∧ recordLimit ≤ 256 then .ok { identity, limit := recordLimit }
  else .error .invalidRecordLimit

/-- Heap bytes to admit before scanning; `mutationSize` is the size of one
planned mutation. -/
def scanReservation (mutationSize chunkLen : Nat) : Except ProgramStatusError Nat :=
  if chunkLen > maxScanBytes then .error .chunkTooLarge
  else .ok (32768 + chunkLen * (2 * mutationSize + 2 * 8 + 4))

/-- Heap bytes of the retained records at the record cap; `recordSize` is the size
of one record. -/
def recordReservation (s : ProgramStatusStore) (recordSize : Nat) : Nat :=
  8192 + s.limit * (2 * recordSize + 128 + 32 + 32 + 2048 + 192)

/-- Ordinary text in ground state needs no allocation. -/
def scanReservationFor (s : ProgramStatusStore) (mutationSize : Nat) (chunk : Bytes) :
    Except ProgramStatusError Nat :=
  if chunk.length > maxScanBytes then .error .chunkTooLarge
  else if s.scanner.plainChunk chunk then .ok 0
  else scanReservation mutationSize chunk.length

/-- Scan without moving committed parser state. -/
def scan (s : ProgramStatusStore) (chunk : Bytes) : Except ProgramStatusError ProgramStatusPlan :=
  if chunk.length > maxScanBytes then .error .chunkTooLarge
  else if s.generation = u64Max ∨ s.revision > u64Max - (chunk.length + 1) then
    .error .revisionExhausted
  else
    let (scanner, mutations, queries) := s.scanner.scan chunk
    .ok { identity := s.identity, generation := s.generation, scanner, mutations, queries }

/-- Keep some records; the revision moves when any was dropped. -/
def retain (s : ProgramStatusStore) (keep : ProgramStatusRecord → Bool) : ProgramStatusStore :=
  let records := s.records.filter keep
  { s with
    records
    revision := if records.length ≠ s.records.length then s.revision + 1 else s.revision }

def apply (s : ProgramStatusStore) : Mutation → ProgramStatusStore
  | .report record =>
    let records :=
      match s.records.findIdx? (·.id == record.id) with
      | some index => s.records.eraseIdx index
      | none => if s.records.length = s.limit then s.records.eraseIdx 0 else s.records
    { s with records := records ++ [record], revision := s.revision + 1 }
  | .clear id =>
    s.retain fun r => !id.isEmpty && r.id != id &&
      !((stripStart id r.id).any fun suffix => (ascii "/").isPrefixOf suffix)
  | .reset => s.retain fun _ => false
  | .exit => s.retain fun r => r.state != .working && r.state != .blocked

/-- Apply an accepted chunk atomically. Wrong-store and stale plans change nothing. -/
def commit (s : ProgramStatusStore) (plan : ProgramStatusPlan) :
    Except ProgramStatusError Unit × ProgramStatusStore :=
  if s.identity ≠ plan.identity ∨ s.generation ≠ plan.generation then (.error .stalePlan, s)
  else
    let applied := plan.mutations.foldl apply s
    (.ok (), { applied with scanner := plan.scanner, generation := applied.generation + 1 })

/-- Drop working and blocked records after process exit and again after drain. -/
def processExited (s : ProgramStatusStore) : Except ProgramStatusError Unit × ProgramStatusStore :=
  if s.generation = u64Max ∨ s.revision = u64Max then (.error .revisionExhausted, s)
  else
    let applied := s.apply .exit
    (.ok (), { applied with generation := applied.generation + 1 })

/-- The part of an identifier before its last slash; empty when it has none. -/
def parent (id : Bytes) : Bytes := (id.rdropWhile (· != '/'.toUInt8)).dropLast

theorem parent_length {id : Bytes} (named : id ≠ []) : (parent id).length < id.length := by
  have shorter : (id.rdropWhile (· != '/'.toUInt8)).length ≤ id.length :=
    (List.rdropWhile_prefix (p := (· != '/'.toUInt8)) (l := id)).length_le
  have some : 0 < id.length := List.length_pos_iff.mpr named
  simp only [parent, List.length_dropLast]
  omega

/-- The app of the nearest ancestor, the record itself included, that names one. -/
def resolveApp (records : List ProgramStatusRecord) (ancestor : Bytes) : Option Bytes :=
  match (records.find? (·.id == ancestor)).bind (·.app) with
  | some app => some app
  | none => if _named : ancestor = [] then none else resolveApp records (parent ancestor)
termination_by ancestor.length
decreasing_by exact parent_length _named

/-- Copy the records with ancestor applications resolved. -/
def snapshot (s : ProgramStatusStore) : ProgramStatusSnapshot where
  revision := s.revision
  records := s.records.map fun r => { r with resolvedApp := resolveApp s.records r.id }

end ProgramStatusStore
end PtyRuntime
