import PtyRuntime.Application.SessionContext
import PtyRuntime.Domain.ReplayLedger

/-! Any number of attachments reading one session while its callbacks produce
output, evict it and report the lifecycle. A read takes its page under the state
mutex and moves the attachment's cursor after the mutex is released, so the two
halves are separate steps. -/
namespace PtyRuntime

open Window (Ledger)

/-- An event as it was taken under the mutex: with the replay floor, the number
of bytes produced and the completion of that moment. -/
structure Taken where
  event : OutputEvent
  floor : Nat
  produced : Nat
  completion : Option Completion
  deriving DecidableEq, Repr

/-- One attachment: its own cursor, the page it has taken but not advanced past,
and the events it has received since `start`. -/
structure Attachment where
  start : ReplayCursor
  cursor : ReplayCursor
  hand : Option Taken := none
  received : List Taken := []
  deriving DecidableEq, Repr

/-- The cursor moves past a page or a gap and stays at completion. -/
def Attachment.advance (cursor : ReplayCursor) : OutputEvent → ReplayCursor
  | .replay (.gap _ stop) => stop
  | .replay (.bytes _ next _) => next
  | .replay .pending => cursor
  | .complete _ => cursor

/-- The session, every byte it ever accepted and its attachments by watcher. -/
structure Observed where
  context : SessionContext
  stream : Bytes
  attachments : SortedMap Nat Attachment

namespace Observed

/-- Everything that can happen to a session. `otherSessions` is what the rest of
the runtime does to the shared budgets; `attach` continues a registration; `take`
is the locked half of `try_next` and, with a waker, of polling a wait; `finish` is
the unlocked half; `dropWait` drops a wait, pending or not. -/
inductive Step where
  | output (bytes : Bytes) (staging : Staging) (allocation : ReplayBuffer.Allocation)
  | report (event : SessionStatus.Report)
  | otherSessions (replayUsed observersUsed : Nat)
  | poison
  | register
  | attach (id : Nat) (position : AttachPosition)
  | take (id : Nat) (waker : Option Waker)
  | finish (id : Nat)
  | dropWait (id : Nat)
  | detach (id : Nat)

/-- Whether a step leaves the attachment `watcher` to its owner. -/
def Step.spares (watcher : Nat) : Step → Bool
  | .attach id _ | .take id _ | .finish id | .dropWait id | .detach id => id ≠ watcher
  | _ => true

/-- A wait registers its waker while pending and drops the old one otherwise; a
plain read leaves the slot alone. -/
def touchWaker (c : SessionContext) (id : Nat) (waker : Option Waker) (pending : Bool) :
    SessionContext :=
  match waker with
  | none => c
  | some waker => c.setWaker id (if pending then some waker else none)

def output (s : Observed) (bytes : Bytes) (staging : Staging)
    (allocation : ReplayBuffer.Allocation) : Observed :=
  let (acceptance, _, context) := s.context.outputObserved bytes staging allocation
  { s with context, stream := if acceptance = .accepted then s.stream ++ bytes else s.stream }

/-- Only a registered watcher that is not attached yet becomes an attachment. -/
def attach (s : Observed) (id : Nat) (position : AttachPosition) : Observed :=
  if (s.context.watchers.get? id).isNone ∨ (s.attachments.get? id).isSome then s
  else
    match s.context.attachCursor position with
    | .error _ => { s with context := s.context.removeWatcher id }
    | .ok cursor => { s with attachments := s.attachments.insert id { start := cursor, cursor } }

/-- The event a read at this cursor takes now. -/
def takes (s : Observed) (cursor : ReplayCursor) : Except RuntimeError (Option Taken) :=
  if s.context.poisoned then .error .internal
  else
    match s.context.read cursor with
    | .error e => .error e
    | .ok none => .ok none
    | .ok (some event) =>
      .ok (some {
        event
        floor := s.context.replay.floor.offset
        produced := s.stream.length
        completion := s.context.status.completion })

def take (s : Observed) (id : Nat) (waker : Option Waker) : Observed :=
  match s.attachments.get? id with
  | none => s
  | some a =>
    -- The attachment is borrowed exclusively until the read returns.
    if a.hand.isSome ∨ s.context.poisoned then s
    else
      match s.takes a.cursor with
      | .error _ => { s with context := touchWaker s.context id waker false }
      | .ok none => { s with context := touchWaker s.context id waker true }
      | .ok (some taken) =>
        { s with
          context := touchWaker s.context id waker false
          attachments := s.attachments.insert id { a with hand := some taken } }

def finish (s : Observed) (id : Nat) : Observed :=
  match s.attachments.get? id with
  | none => s
  | some a =>
    match a.hand with
    | none => s
    | some taken =>
      { s with
        attachments := s.attachments.insert id { a with
          cursor := Attachment.advance a.cursor taken.event
          hand := none
          received := a.received ++ [taken] } }

def step (s : Observed) : Step → Observed
  | .output bytes staging allocation => s.output bytes staging allocation
  | .report event => { s with context := (s.context.report event).2 }
  | .otherSessions replayUsed observersUsed =>
    { s with
      context := { s.context with
        replayQuota := { s.context.replayQuota with used := replayUsed }
        observers := { s.context.observers with used := observersUsed } } }
  | .poison => { s with context := { s.context with poisoned := true } }
  | .register => { s with context := s.context.registerWatcher.2 }
  | .attach id position => s.attach id position
  | .take id waker => s.take id waker
  | .finish id => s.finish id
  | .dropWait id => { s with context := s.context.clearWaker id }
  | .detach id =>
    { s with
      context := s.context.removeWatcher id
      attachments := s.attachments.erase id }

def run (s : Observed) (steps : List Step) : Observed := steps.foldl step s

end Observed
end PtyRuntime
