import PtyRuntime.Application.Attachments
import PtyRuntime.Application.Projection.Callers

/-! A session whose output goes to a projection before raw replay. The output
callback holds the session's state mutex throughout, while the projection's worker
and every other thread go on beside it. -/
namespace PtyRuntime
open Thread

/-- One completed output callback: what the projection answered, if it was asked,
what was returned, and the replay end and the published offset before and after. -/
structure Callback where
  bytes : Bytes
  staging : Staging
  returned : OutputAcceptance
  replay : Nat × Nat
  published : Nat × Nat

structure ProjectedSession where
  observed : Observed
  projection : Coordinator
  callbacks : List Callback := []

namespace ProjectedSession

/-- The two locks a program may hold for its whole length. -/
inductive Role where
  | worker
  | session
  deriving DecidableEq, Repr

/-- Where raw replay ends and up to where the projection has admitted output. -/
def ends (s : ProjectedSession) : Nat × Nat :=
  (s.observed.context.replay.endOffset, s.projection.admission.status.published.offset)

/-- A thread of the projection, in the whole session. -/
def onProjection {α : Type} (work : Work α) : Thread ProjectedSession Answer α :=
  work.lift projection fun s projection => { s with projection }

/-- Offer the chunk to the projection, unless the state mutex is poisoned or the
session's context or projection is unavailable. -/
def stage (bytes : Bytes) (available : Bool) : Thread ProjectedSession Answer Staging := do
  let poisoned ← look (·.observed.context.poisoned)
  if poisoned || !available then pure .unavailable
  else do
    let acceptance ← onProjection (Coordinator.stageOutput bytes)
    pure (.answered acceptance)

/-- The rest of the callback, after the projection has answered. -/
def retain (s : ProjectedSession) (bytes : Bytes) (allocation : ReplayBuffer.Allocation)
    (began : Nat × Nat) (staging : Staging) : ProjectedSession :=
  let next := { s with observed := s.observed.output bytes staging allocation }
  { next with
    callbacks := s.callbacks ++ [{
      bytes
      staging
      returned := (s.observed.context.outputObserved bytes staging allocation).1
      replay := (began.1, next.ends.1)
      published := (began.2, next.ends.2) }] }

/-- The output callback of a projected session. -/
def outputObserved (bytes : Bytes) (available : Bool) (allocation : ReplayBuffer.Allocation) :
    Thread ProjectedSession Answer Unit := do
  let began ← look ends
  let staging ← stage bytes available
  update (·.retain bytes allocation began staging)

/-- Whatever else happens to the session under its state mutex. -/
def besides : Observed.Step → Observed → Observed
  | .output _ _ _, s => s
  | step, s => s.step step

/-- One scheduling decision about a projected session. Output reaches the projection
through the callback only. -/
inductive Event where
  | run (owner : Coordinator.Owner)
  | work (answer : Answer)
  | output (bytes : Bytes) (available : Bool) (allocation : ReplayBuffer.Allocation)
  | session (step : Observed.Step)
  | advance (answer : Answer)
  | call (request : Coordinator.Call)
  | otherSessions (replayUsed observersUsed : Nat)
  | resume (index : Nat) (answer : Answer)

/-- Callers other than the reader. -/
def silenced : Coordinator.Call → Work Unit
  | .stageOutput _ => pure ()
  | request => request.thread

def Event.choice : Event → Choice Role ProjectedSession Answer
  | .run owner => .enter .worker (onProjection owner.thread)
  | .work answer => .work .worker answer
  | .output bytes available allocation => .enter .session (outputObserved bytes available allocation)
  | .session step => .enter .session (update fun s => { s with observed := besides step s.observed })
  | .advance answer => .work .session answer
  | .call request => .call (onProjection (silenced request))
  | .otherSessions replayUsed observersUsed =>
    .call (update fun s =>
      { s with observed := s.observed.step (.otherSessions replayUsed observersUsed) })
  | .resume index answer => .resume index answer

/-- The session and its threads after a schedule. -/
def after (s : ProjectedSession) (events : List Event) : Machine Role ProjectedSession Answer :=
  (Machine.start s).run (events.map Event.choice)

end ProjectedSession
end PtyRuntime
