import PtyRuntime.Application.Attachments
import PtyRuntime.Hex
import PtyRuntime.Infrastructure.EventStream.Codec

/-! A publisher owns one attachment and moves its events, one at a time, into a
caller-owned sink. Publication is driven by calls that wait at two places, for
the source and for the sink; a call may be dropped at either. -/
namespace PtyRuntime.EventStream

/-- What the external event crate decides: which texts are identities, which are
schema names, and the cursor version it writes. -/
structure EventCrate (EventId : Type) where
  eventId : String → Option EventId
  acceptsSchema : String → Bool
  cursorVersion : Nat

structure Source where
  start : ReplayCursor
  event : OutputEvent
  deriving DecidableEq, Repr

structure Prepared (EventId : Type) where
  event : NewEvent EventId
  after : ReplayCursor
  complete : Bool
  deriving DecidableEq, Repr

inductive Pending (EventId : Type) where
  | source (source : Source)
  | prepared (prepared : Prepared EventId)
  deriving DecidableEq, Repr

/-- One validated publication acknowledgement, with its two distinct cursors. -/
structure Publication (StreamKey : Type) where
  eventCursor : StoreCursor StreamKey
  byteCursor : ReplayCursor
  complete : Bool
  deriving DecidableEq, Repr

structure EventStreamPublisher (StreamKey EventId : Type) where
  stream : StreamKey
  identity : Nat
  sequence : Nat := 0
  acknowledged : ReplayCursor
  lastEventOffset : Nat := 0
  pending : Option (Pending EventId) := none
  complete : Bool := false
  deriving DecidableEq, Repr

/-- `pty-{:016x}-{:016x}-{:016x}-{:016x}`. -/
def eventIdText (lifetime : SessionLifetime) (identity sequence : Nat) : String :=
  String.ofList ("pty-".toList ++ hex 16 lifetime.owner ++ "-".toList ++ hex 16 lifetime.sequence ++
    "-".toList ++ hex 16 identity ++ "-".toList ++ hex 16 sequence)

section

variable {StreamKey EventId : Type} [DecidableEq StreamKey] [DecidableEq EventId]

def schema (external : EventCrate EventId) : Except PublicationError SchemaRef :=
  if external.acceptsSchema SCHEMA then .ok ⟨SCHEMA, VERSION⟩ else .error .invalidRecord

namespace EventStreamPublisher

/-- Encode the pending source; `allocate` answers the encoder's reservation. -/
def prepare (external : EventCrate EventId) (allocate : Nat → Bool)
    (p : EventStreamPublisher StreamKey EventId) :
    Except PublicationError Unit × EventStreamPublisher StreamKey EventId :=
  match p.pending with
  | some (.source source) =>
    match checkedAdd p.sequence 1 with
    | none => (.error .capacity, p)
    | some sequence =>
      match encode allocate source.start source.event with
      | .error e => (.error e, p)
      | .ok (payload, after, complete) =>
        match external.eventId (eventIdText source.start.lifetime p.identity sequence) with
        | none => (.error .capacity, p)
        | some id =>
          match schema external with
          | .error e => (.error e, p)
          | .ok schema =>
            (.ok (), { p with
              pending := some (.prepared { event := { id, schema, payload }, after, complete })
              sequence })
  | _ => (.ok (), p)

/-- What `publish_next` does with the sink's answer to its append. -/
def receive (external : EventCrate EventId) (p : EventStreamPublisher StreamKey EventId)
    (answer : Except SinkFailure (Record StreamKey EventId)) :
    Except PublicationError (Publication StreamKey) × EventStreamPublisher StreamKey EventId :=
  match answer, p.pending with
  | .error failure, _ => (.error (.sink failure), p)
  | .ok record, some (.prepared pending) =>
    if record.event ≠ pending.event ∨ record.cursor.stream ≠ p.stream ∨
        record.cursor.version ≠ external.cursorVersion ∨
        record.cursor.offset ≤ p.lastEventOffset then
      (.error .invalidRecord, p)
    else
      (.ok { eventCursor := record.cursor, byteCursor := pending.after, complete := pending.complete },
        { p with
          lastEventOffset := record.cursor.offset
          acknowledged := pending.after
          complete := pending.complete
          pending := none })
  | .ok _, _ => (.error .invalidRecord, p)

end EventStreamPublisher

/-- Where the current call of `publish_next` waits. -/
inductive Call where
  | idle
  | reading (start : ReplayCursor)
  | appending
  deriving DecidableEq, Repr

/-- The session with the publisher that owns the attachment `watcher`. The logs
hold every event the publisher has read, every append with the number of events
read by then, and the result of every call that returned. -/
structure Publishing (StreamKey EventId : Type) where
  observed : Observed
  watcher : Nat
  publisher : EventStreamPublisher StreamKey EventId
  call : Call := .idle
  sources : List Taken := []
  attempts : List (Nat × NewEvent EventId) := []
  results : List (Except PublicationError (Option (Publication StreamKey))) := []

/-- What can happen to a publisher. A call runs to its first wait; `poll` is the
locked half of polling the source and `resume` what follows a page it took;
`answer` is the sink's. -/
inductive Event (StreamKey EventId : Type) where
  | session (step : Observed.Step)
  | call (allocate : Nat → Bool)
  | poll (waker : Waker)
  | resume (allocate : Nat → Bool)
  | answer (answer : Except SinkFailure (Record StreamKey EventId))
  | dropCall

namespace Publishing

/-- A publisher over an attachment that is already registered. -/
def new (observed : Observed) (watcher : Nat) (cursor : ReplayCursor) (stream : StreamKey)
    (identity : Nat) : Publishing StreamKey EventId where
  observed
  watcher
  publisher := { stream, identity, acknowledged := cursor }

def finish (s : Publishing StreamKey EventId)
    (result : Except PublicationError (Option (Publication StreamKey))) :
    Publishing StreamKey EventId :=
  { s with call := .idle, results := s.results ++ [result] }

/-- The rest of a call once there is something pending, up to the sink's answer. -/
def submit (external : EventCrate EventId) (allocate : Nat → Bool)
    (s : Publishing StreamKey EventId) : Publishing StreamKey EventId :=
  match s.publisher.prepare external allocate with
  | (.error e, publisher) => { s with publisher }.finish (.error e)
  | (.ok (), publisher) =>
    match publisher.pending with
    | some (.prepared pending) =>
      { s with
        publisher
        call := .appending
        attempts := s.attempts ++ [(s.sources.length, pending.event)] }
    | _ => { s with publisher }.finish (.error .invalidRecord)

/-- `publish_next` borrows the publisher, so calls do not overlap. -/
def publishNext (external : EventCrate EventId) (allocate : Nat → Bool)
    (s : Publishing StreamKey EventId) : Publishing StreamKey EventId :=
  if s.call ≠ .idle then s
  else if s.publisher.complete then s.finish (.ok none)
  else if s.publisher.pending.isSome then s.submit external allocate
  else
    match checkedAdd s.publisher.sequence 1, s.observed.attachments.get? s.watcher with
    | none, _ => s.finish (.error .capacity)
    | some _, some a => { s with call := .reading a.cursor }
    | some _, none => s

/-- The wait for the source is over and clears its waker. -/
def endWait (s : Publishing StreamKey EventId) (observed : Observed) :
    Publishing StreamKey EventId :=
  { s with observed := observed.step (.dropWait s.watcher) }

def poll (waker : Waker) (s : Publishing StreamKey EventId) : Publishing StreamKey EventId :=
  match s.call, s.observed.attachments.get? s.watcher with
  | .reading _, some a =>
    if a.hand.isSome then s
    else
      let observed := s.observed.take s.watcher (some waker)
      match s.observed.takes a.cursor with
      | .error e => (s.endWait observed).finish (.error (.source e))
      | .ok _ => { s with observed }
  | _, _ => s

/-- The source is pending before it is encoded: the attachment has moved on. -/
def resume (external : EventCrate EventId) (allocate : Nat → Bool)
    (s : Publishing StreamKey EventId) : Publishing StreamKey EventId :=
  match s.call, (s.observed.attachments.get? s.watcher).bind (·.hand) with
  | .reading start, some taken =>
    { s.endWait (s.observed.finish s.watcher) with
      call := .idle
      publisher := { s.publisher with
        pending := some (.source { start, event := taken.event }) }
      sources := s.sources ++ [taken] }.submit external allocate
  | _, _ => s

def answered (external : EventCrate EventId)
    (answer : Except SinkFailure (Record StreamKey EventId)) (s : Publishing StreamKey EventId) :
    Publishing StreamKey EventId :=
  if s.call ≠ .appending then s
  else
    match s.publisher.receive external answer with
    | (.error e, publisher) => { s with publisher }.finish (.error e)
    | (.ok publication, publisher) => { s with publisher }.finish (.ok (some publication))

/-- A poll runs to its end, so a call is only dropped while it waits. -/
def dropCall (s : Publishing StreamKey EventId) : Publishing StreamKey EventId :=
  match s.call with
  | .idle => s
  | .appending => { s with call := .idle }
  | .reading _ =>
    if ((s.observed.attachments.get? s.watcher).bind (·.hand)).isSome then s
    else { s.endWait s.observed with call := .idle }

def step (external : EventCrate EventId) (s : Publishing StreamKey EventId) :
    Event StreamKey EventId → Publishing StreamKey EventId
  | .session step => if step.spares s.watcher then { s with observed := s.observed.step step } else s
  | .call allocate => s.publishNext external allocate
  | .poll waker => s.poll waker
  | .resume allocate => s.resume external allocate
  | .answer answer => s.answered external answer
  | .dropCall => s.dropCall

def run (external : EventCrate EventId) (s : Publishing StreamKey EventId)
    (events : List (Event StreamKey EventId)) : Publishing StreamKey EventId :=
  events.foldl (step external) s

end Publishing
end
end PtyRuntime.EventStream
